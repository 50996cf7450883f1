import RabbitMQ.Consumers.ConsumerManager.Moves

/-! Every run keeps a registry in which each setup, loop and drop refers to a consumer that there is,
and from which a drop has removed its consumer for good. -/

namespace RabbitMQ
namespace ConsumerManager

open Transition State

variable {s t : State} {event : Event}

/-! ## Consumers and pools -/

@[simp] theorem settleSetup_consumers_length {k : Nat} (setup : Setup) (ok : Bool) :
    (s.settleSetup k setup ok).consumers.length = s.consumers.length := by
  unfold settleSetup
  dsimp only
  split
  · split <;> simp [setSetup, modifyConsumer, dropConsumer]
  · split
    · simp [setSetup]
    · split <;> simp [setSetup, setLoop, emit]
  · simp [setSetup]

theorem Steps.consumers_length (h : Steps s event t) :
    t.consumers.length = s.consumers.length +
      match event with
      | .subscribe _ => 1
      | _ => 0 := by
  cases h with
  | subscribe => simp [runSetup, modifyConsumer]
  | unsubscribe =>
    unfold State.unsubscribe
    dsimp only
    split <;> simp [modifyConsumer, dropConsumer]
  | setupContinues =>
    unfold State.setupContinues
    split
    · simp [setSetup]
    · split
      · simp
      · split <;> simp [setSetup]
  | setupCompletes =>
    unfold State.setupCompletes
    split <;> simp [setSetup, track, modifyConsumer]
  | handled =>
    unfold State.handled
    dsimp only
    split <;> simp [modifyConsumer]
  | disconnect =>
    unfold State.disconnect
    dsimp only
    split <;> simp [closePool]
  | _ =>
    simp [setLoop, setDrop, setSetup, modifyConsumer, closePool, State.connectionLost, runSetup,
      State.channelOpened, State.consumeOk, tryAgain]

/-- No setup completes in the step that begins another one. -/
theorem Begins.not_completes {setup : Setup} (h : Begins s event setup) (k : Nat) :
    event ≠ .setupCompletes k := by
  cases h with
  | subscribe hevent | recovery hevent | recreation hevent =>
    rw [hevent]
    simp

theorem settleSetup_consumers {k : Nat} (setup : Setup) (ok : Bool) :
    (s.settleSetup k setup ok).consumers =
      if ok ∧ setup.caller = .subscribe then
        s.consumers.modify setup.consumer fun c => { c with subscribed := true }
      else s.consumers := by
  unfold settleSetup
  dsimp only
  split
  · next hcaller => cases ok <;> simp [setSetup, modifyConsumer, dropConsumer, hcaller]
  · next hcaller =>
    split
    · simp [setSetup, hcaller]
    · split <;> simp [setSetup, setLoop, emit, hcaller]
  · next hcaller => simp [setSetup, hcaller]

theorem settleSetup_consumers_of_fails {k : Nat} (setup : Setup) :
    (s.settleSetup k setup false).consumers = s.consumers := by
  rw [settleSetup_consumers, if_neg (by simp)]

/-- What a step can do to a consumer. -/
inductive ConsumerMoves (s : State) (event : Event) (consumer : Nat) (c' : Consumer) : Prop
  | same (hc : s.consumers[consumer]? = some c')
      (hnone : ∀ {k : Nat} {setup : Setup} {channel consumerTag : Nat}, event = .setupCompletes k →
        s.setups[k]? = some setup → setup.stage = .consumed channel consumerTag →
        setup.consumer = consumer → consumer ∉ s.activeConsumers ∨ s.cancelled consumer)
  | registers {noAck} (hevent : event = .subscribe noAck) (hnew : consumer = s.consumers.length)
      (heq : c' = ⟨none, none, none, false, 1, 0, noAck, false⟩)
  | begins {c : Consumer} {setup : Setup} (hc : s.consumers[consumer]? = some c)
      (hbegins : Begins s event setup) (hconsumer : setup.consumer = consumer)
      (heq : c' = { c with epoch := c.epoch + 1 })
  | cancels {c : Consumer} (hc : s.consumers[consumer]? = some c)
      (hevent : event = .disconnect ∨ ∃ consumerTag, event = .unsubscribe consumerTag)
      (heq : c' = { c with cancelled := true })
  | tracks {c : Consumer} {k : Nat} {setup : Setup} {channel consumerTag : Nat}
      (hc : s.consumers[consumer]? = some c) (hevent : event = .setupCompletes k)
      (hk : s.setups[k]? = some setup) (hstage : setup.stage = .consumed channel consumerTag)
      (hconsumer : setup.consumer = consumer) (hactive : consumer ∈ s.activeConsumers)
      (hcancelled : ¬ s.cancelled consumer)
      (heq : c' = { c with
        channel := some channel
        consumerTag := some consumerTag
        watchedChannel := some channel
        subscribed := c.subscribed || setup.caller = .subscribe })
  | counts {c : Consumer} {n : Nat} (hc : s.consumers[consumer]? = some c)
      (hevent : (∃ i, event = .delivered i) ∨ ∃ owner, event = .handled owner)
      (heq : c' = { c with inFlight := n })

/-- A step that completes no setup writes the consumers in one place at most. -/
theorem ConsumerMoves.of_modify {consumer i : Nat} {f : Consumer → Consumer} {c' : Consumer}
    (hevent : ∀ k, event ≠ .setupCompletes k) (h : (s.consumers.modify i f)[consumer]? = some c')
    (hmoves : ∀ c, s.consumers[consumer]? = some c → i = consumer →
      ConsumerMoves s event consumer (f c)) : ConsumerMoves s event consumer c' := by
  obtain ⟨c, hc, rfl⟩ := List.getElem?_modify_cases h
  split
  · next heq => exact hmoves c hc heq
  · exact .same hc fun hcompletes => absurd hcompletes (hevent _)

/-- What a setup that completes writes of its consumer. -/
theorem track_settled_consumer {k channel consumerTag consumer : Nat} {setup : Setup} {c' : Consumer}
    (h : ((s.track setup.consumer channel consumerTag).settleSetup k setup true).consumers[consumer]? =
      some c') :
    ∃ c, s.consumers[consumer]? = some c ∧ c' = if setup.consumer = consumer then { c with
      channel := some channel
      consumerTag := some consumerTag
      watchedChannel := some channel
      subscribed := c.subscribed || setup.caller = .subscribe } else c := by
  rw [settleSetup_consumers] at h
  split at h
  · next hcaller =>
    obtain ⟨c₁, hc₁, rfl⟩ := List.getElem?_modify_cases h
    obtain ⟨c, hc, rfl⟩ := List.getElem?_modify_cases hc₁
    refine ⟨c, hc, ?_⟩
    split <;> simp [hcaller.2]
  · next hcaller =>
    obtain ⟨c, hc, rfl⟩ := List.getElem?_modify_cases h
    refine ⟨c, hc, ?_⟩
    have hother : setup.caller ≠ .subscribe := fun heq => hcaller ⟨rfl, heq⟩
    split <;> simp [hother]

theorem Steps.consumers (h : Steps s event t) {consumer : Nat} {c' : Consumer}
    (hc : t.consumers[consumer]? = some c') : ConsumerMoves s event consumer c' := by
  cases h with
  | @subscribe noAck =>
    obtain ⟨c, hc₀, rfl⟩ := List.getElem?_modify_cases hc
    rcases List.getElem?_append_cases hc₀ with hc₀ | ⟨hnew, rfl⟩
    · have hlt := (List.getElem?_eq_some_iff.mp hc₀).1
      rw [if_neg (Nat.ne_of_gt hlt)]
      exact .same hc₀ (by simp)
    · exact .registers rfl hnew (if_pos hnew.symm)
  | @unsubscribe consumerTag X c₀ =>
    have hmodify : (s.consumers.modify X fun c => { c with cancelled := true })[consumer]? =
        some c' := by
      rcases unsubscribe_cases s X c₀ with ⟨_, _, _, _, heq⟩ | heq <;>
        (rw [heq] at hc; exact hc)
    exact .of_modify (by simp) hmodify fun c hc _ => .cancels hc (.inr ⟨_, rfl⟩) rfl
  | @setupContinues k setup channel hk hstage =>
    refine .same ?_ (by simp)
    unfold State.setupContinues at hc
    split at hc
    · simpa [setSetup] using hc
    · split at hc
      · rwa [settleSetup_consumers_of_fails] at hc
      · split at hc <;> exact hc
  | @setupCompletes k setup channel consumerTag hk hstage =>
    unfold State.setupCompletes at hc
    split at hc
    · next hgone =>
      refine .same hc fun {_ _ _ _} hevent hk' _ hconsumer => ?_
      cases hevent
      cases hk.symm.trans hk'
      exact hconsumer ▸ hgone
    · next hours =>
      rw [not_or, not_not] at hours
      obtain ⟨c, hc₀, rfl⟩ := track_settled_consumer hc
      split
      · next heq =>
        exact .tracks hc₀ rfl hk hstage heq (heq ▸ hours.1) (heq ▸ hours.2) rfl
      · next hne =>
        refine .same hc₀ fun {_ _ _ _} hevent hk' _ hconsumer => ?_
        cases hevent
        cases hk.symm.trans hk'
        exact absurd hconsumer hne
  | setupCancelled =>
    rw [settleSetup_consumers_of_fails] at hc
    exact .same (by simpa using hc) (by simp)
  | setupReleased | setupFails =>
    rw [settleSetup_consumers_of_fails] at hc
    exact .same hc (by simp)
  | @loopTries l loop hl hstage _ hours hepoch =>
    have hbegins : Begins s (.loopWakes l) ⟨loop.consumer, .recovery l, none, .notConnected⟩ :=
      .recovery rfl rfl hl hstage hours hepoch rfl
    exact .of_modify (by simp) hc fun c hc heq => .begins hc hbegins heq rfl
  | @recreates X recreating hrecreating =>
    have hbegins : Begins s .recreates ⟨X, .recreation, none, .notConnected⟩ :=
      .recreation rfl rfl hrecreating
    exact .of_modify (by simp) hc fun c hc heq => .begins hc hbegins heq rfl
  | delivered =>
    exact .of_modify (by simp) hc fun c hc _ => .counts hc (.inl ⟨_, rfl⟩) rfl
  | handled =>
    unfold State.handled at hc
    dsimp only at hc
    split at hc <;>
      exact .of_modify (by simp) hc fun c hc _ => .counts hc (.inr ⟨_, rfl⟩) rfl
  | disconnect =>
    have hmap : (s.consumers.mapIdx fun consumer (c : Consumer) =>
        if consumer ∈ s.activeConsumers then { c with cancelled := true } else c)[consumer]? =
          some c' := by
      unfold State.disconnect at hc
      dsimp only at hc
      split at hc <;> exact hc
    rw [List.getElem?_mapIdx] at hmap
    obtain ⟨c, hc₀, rfl⟩ := Option.map_eq_some_iff.mp hmap
    split
    · exact .cancels hc₀ (.inl rfl) rfl
    · exact .same hc₀ (by simp)
  | _ =>
    refine .same ?_ (by simp)
    simpa [setLoop, setDrop, setSetup, State.channelOpened, State.consumeOk, closePool,
      State.connectionLost] using hc

theorem Steps.pools_length (h : Steps s event t) :
    t.pools.length = s.pools.length +
      match event with
      | .poolInstalled => 1
      | _ => 0 := by
  cases h with
  | disconnect =>
    unfold State.disconnect
    dsimp only
    split <;> simp [closePool]
  | _ =>
    simp [setLoop, setDrop, setSetup, modifyConsumer, closePool, State.connectionLost,
      State.channelOpened, State.consumeOk, tryAgain]

/-- The pool that is installed after a step was installed before it, or is new. -/
theorem Steps.channelPool (h : Steps s event t) {pool : Nat} (hpool : t.channelPool = some pool) :
    (s.channelPool = some pool ∧ t.pools.length = s.pools.length) ∨
      (s.channelPool = none ∧ pool = s.pools.length ∧ t.pools.length = s.pools.length + 1) := by
  have hlength := h.pools_length
  cases h with
  | poolInstalled hnone => exact .inr ⟨hnone, (Option.some_inj.mp hpool).symm, hlength⟩
  | restoreFails | connectionLost | poolClosed => cases hpool
  | _ =>
    refine .inl ⟨?_, hlength⟩
    simpa [setLoop, setDrop, setSetup, modifyConsumer, State.channelOpened, State.consumeOk,
      tryAgain] using hpool

/-- A consumer that is registered after a step was registered before it, or is new. -/
theorem Steps.active (h : Steps s event t) {consumer : Nat} (hactive : consumer ∈ t.activeConsumers) :
    consumer ∈ s.activeConsumers ∨
      (consumer = s.consumers.length ∧ t.consumers.length = s.consumers.length + 1) := by
  cases h with
  | subscribe =>
    simp only [runSetup_frame, List.mem_append, List.mem_singleton] at hactive
    rcases hactive with hactive | rfl
    · exact .inl hactive
    · exact .inr ⟨rfl, by simp [runSetup, modifyConsumer]⟩
  | removeConsumer =>
    rw [(removeConsumer_registry ..).1] at hactive
    exact .inl (List.mem_of_mem_erase hactive)
  | disconnect =>
    unfold State.disconnect at hactive
    dsimp only at hactive
    split at hactive <;> cases hactive
  | _ =>
    left
    simpa [setLoop, setDrop, setSetup, modifyConsumer, State.channelOpened, State.consumeOk,
      tryAgain, closePool, State.connectionLost] using hactive

/-! ## The registry -/

theorem channelPool_of_ours {loop : Loop} (hours : s.stillOurs loop) :
    loop.ownedPool = s.channelPool := (of_decide_eq_true hours).2.2.symm

structure Registered (s : State) : Prop where
  nodup : s.activeConsumers.Nodup
  active : ∀ consumer ∈ s.activeConsumers, consumer < s.consumers.length
  setups : ∀ {k : Nat} {setup : Setup}, s.setups[k]? = some setup → setup.consumer < s.consumers.length
  loops : ∀ {l : Nat} {loop : Loop}, s.loops[l]? = some loop → loop.consumer < s.consumers.length
  drops : ∀ {d : Nat} {drop : Drop}, s.drops[d]? = some drop → drop.consumer < s.consumers.length
  unsubscribes : ∀ {u : Nat} {unsubscribe : Unsubscribe}, s.unsubscribes[u]? = some unsubscribe →
    unsubscribe.consumer < s.consumers.length
  removed : ∀ {d : Nat} {drop : Drop}, s.drops[d]? = some drop → drop.stage.waits = false →
    drop.consumer ∉ s.activeConsumers
  recreating : ∀ consumer ∈ s.recreating, consumer ∈ s.activeConsumers
  newest : ∀ {pool : Nat}, s.channelPool = some pool → s.pools.length = pool + 1
  setupPools : ∀ {k : Nat} {setup : Setup} {pool : Nat}, s.setups[k]? = some setup → setup.pool = some pool →
    pool < s.pools.length
  loopPools : ∀ {l : Nat} {loop : Loop} {pool : Nat}, s.loops[l]? = some loop → loop.ownedPool = some pool →
    pool < s.pools.length

theorem registered_start : Registered start where
  nodup := .nil
  active := nofun
  setups := nofun
  loops := nofun
  drops := nofun
  unsubscribes := nofun
  removed := nofun
  recreating := nofun
  newest := nofun
  setupPools := nofun
  loopPools := nofun

/-- While `recreateAll` has consumers to reach, nothing else runs. -/
theorem recreates_of_recreating (hs : step s event = some t) (h : s.recreating ≠ []) :
    event = .recreates := by
  unfold step at hs
  split at hs
  · cases hs
  · next hguard => exact of_not_not fun hne => hguard ⟨h, hne⟩

/-- What `recreateAll` has yet to reach, after a step that is not one of its own. -/
theorem Steps.recreating (h : Steps s event t) {consumer : Nat} (hmem : consumer ∈ t.recreating) :
    t.activeConsumers = s.activeConsumers ∧ consumer ∈ s.activeConsumers ∨
      consumer ∈ s.recreating := by
  cases h with
  | recreateAll | recreateAllLate => exact .inl ⟨rfl, hmem⟩
  | recreates hrecreating =>
    right
    rw [hrecreating]
    exact List.mem_cons_of_mem _ (by simpa using hmem)
  | _ =>
    right
    simpa [setLoop, setDrop, setSetup, modifyConsumer, State.channelOpened, State.consumeOk,
      tryAgain, closePool, State.connectionLost] using hmem

theorem Registered.begins (h : Registered s) (hsteps : Steps s event t) {setup : Setup}
    (hbegins : Begins s event setup) : setup.consumer < t.consumers.length := by
  have hlength := hsteps.consumers_length
  have hle : s.consumers.length ≤ t.consumers.length := by
    rw [hlength]
    exact Nat.le_add_right _ _
  cases hbegins with
  | subscribe hevent _ hnew =>
    subst hevent
    rw [hnew, hlength]
    exact Nat.lt_succ_self _
  | recovery _ _ hl _ _ _ hconsumer =>
    have hlt := h.loops hl
    omega
  | recreation _ _ hrecreating =>
    have hlt := h.active _ (h.recreating _ (hrecreating ▸ List.mem_cons_self))
    omega

/-- A consumer that a drop has removed stays away. -/
theorem Steps.stays_removed (hsteps : Steps s event t) {consumer : Nat}
    (hlt : consumer < s.consumers.length) (hremoved : consumer ∉ s.activeConsumers) :
    consumer ∉ t.activeConsumers := by
  intro hactive
  rcases hsteps.active hactive with hactive | ⟨rfl, _⟩
  · exact hremoved hactive
  · exact Nat.lt_irrefl _ hlt

theorem Registered.step_removed (h : Registered s) (hsteps : Steps s event t) {d : Nat}
    {drop : Drop} (hd : t.drops[d]? = some drop) (hwaits : drop.stage.waits = false) :
    drop.consumer ∉ t.activeConsumers := by
  cases hsteps.drops hd with
  | same hd => exact hsteps.stays_removed (h.drops hd) (h.removed hd hwaits)
  | drained _ _ heq =>
    rw [heq] at hwaits
    cases hwaits
  | removes _ _ heq hremoved =>
    rw [hremoved, heq]
    exact h.nodup.not_mem_erase
  | releases hd₀ hstage heq hremoved =>
    have hlt := h.drops hd₀
    have hgone := h.removed hd₀
    rw [heq]
    rcases hstage with hstage | hstage
    · rw [hremoved hstage]
      exact h.nodup.not_mem_erase
    · exact hsteps.stays_removed hlt (hgone (by rw [hstage]; rfl))
  | done hd₀ hstage heq =>
    have hlt := h.drops hd₀
    have hgone := h.removed hd₀ (by rw [hstage]; rfl)
    rw [heq]
    exact hsteps.stays_removed hlt hgone
  | begins _ h => exact absurd h (by simp [hwaits])

theorem Registered.step_recreating (h : Registered s) (hs : step s event = some t) {consumer : Nat}
    (hmem : consumer ∈ t.recreating) : consumer ∈ t.activeConsumers := by
  rcases (step_cases hs).recreating hmem with ⟨heq, hactive⟩ | hmem'
  · rw [heq]
    exact hactive
  · have hactive := h.recreating _ hmem'
    cases recreates_of_recreating hs (List.ne_nil_of_mem hmem')
    cases step_cases hs with
    | recreates => simpa using hactive

theorem Registered.step_nodup (h : Registered s) (hsteps : Steps s event t) :
    t.activeConsumers.Nodup := by
  have hnodup := h.nodup
  cases hsteps with
  | subscribe =>
    simp only [runSetup_frame]
    refine List.nodup_append.mpr ⟨hnodup, List.nodup_singleton _, ?_⟩
    rintro consumer hactive _ (_ | ⟨_, ⟨⟩⟩) rfl
    exact Nat.lt_irrefl _ (h.active _ hactive)
  | removeConsumer =>
    rw [(removeConsumer_registry ..).1]
    exact hnodup.erase _
  | disconnect =>
    unfold State.disconnect
    dsimp only
    split <;> exact .nil
  | _ =>
    simpa [setLoop, setDrop, setSetup, modifyConsumer, State.channelOpened, State.consumeOk,
      tryAgain, closePool, State.connectionLost] using hnodup

theorem Registered.step (h : Registered s) (hs : step s event = some t) : Registered t := by
  have hsteps := step_cases hs
  have hconsumers : s.consumers.length ≤ t.consumers.length := by
    rw [hsteps.consumers_length]
    exact Nat.le_add_right _ _
  have hpools : s.pools.length ≤ t.pools.length := by
    rw [hsteps.pools_length]
    exact Nat.le_add_right _ _
  have hsetups : ∀ {k : Nat} {setup : Setup}, t.setups[k]? = some setup →
      setup.consumer < t.consumers.length := by
    intro k setup hk
    rcases (hsteps.setups hk).origin with ⟨setup₀, hk₀, heq, _⟩ | ⟨_, hbegins, _⟩
    · rw [heq]
      exact Nat.lt_of_lt_of_le (h.setups hk₀) hconsumers
    · exact h.begins hsteps hbegins
  have hloops : ∀ {l : Nat} {loop : Loop}, t.loops[l]? = some loop →
      loop.consumer < t.consumers.length := by
    intro l loop hl
    rcases (hsteps.loops hl).origin with ⟨loop₀, hl₀, heq, _⟩ | ⟨_, hactive, _⟩
    · rw [heq]
      exact Nat.lt_of_lt_of_le (h.loops hl₀) hconsumers
    · exact Nat.lt_of_lt_of_le (h.active _ hactive) hconsumers
  have hunsubscribes : ∀ {u : Nat} {unsubscribe : Unsubscribe},
      t.unsubscribes[u]? = some unsubscribe → unsubscribe.consumer < t.consumers.length := by
    intro u unsubscribe hu
    cases hsteps.unsubscribes hu with
    | same hu => exact Nat.lt_of_lt_of_le (h.unsubscribes hu) hconsumers
    | begins _ hactive => exact Nat.lt_of_lt_of_le (h.active _ hactive) hconsumers
    | cancelled hu₀ heq | resolved hu₀ heq =>
      have hlt := h.unsubscribes hu₀
      rw [heq]
      exact Nat.lt_of_lt_of_le hlt hconsumers
  refine {
    nodup := h.step_nodup hsteps
    active := ?_
    setups := hsetups
    loops := hloops
    drops := ?_
    unsubscribes := hunsubscribes
    removed := h.step_removed hsteps
    recreating := fun _ => h.step_recreating hs
    newest := ?_
    setupPools := ?_
    loopPools := ?_ }
  · intro consumer hactive
    rcases hsteps.active hactive with hactive | ⟨rfl, hlength⟩
    · exact Nat.lt_of_lt_of_le (h.active _ hactive) hconsumers
    · omega
  · intro d drop hd
    rcases (hsteps.drops hd).origin with ⟨drop₀, hd₀, heq, _⟩ | ⟨_, _, hdropping⟩
    · rw [heq]
      exact Nat.lt_of_lt_of_le (h.drops hd₀) hconsumers
    · cases hdropping with
      | subscribe _ hk _ _ heq =>
        rw [heq]
        exact Nat.lt_of_lt_of_le (h.setups hk) hconsumers
      | recovery _ hl _ heq =>
        rw [heq]
        exact Nat.lt_of_lt_of_le (h.loops hl) hconsumers
      | unsubscribe _ hu => exact hunsubscribes hu
  · intro pool hpool
    rcases hsteps.channelPool hpool with ⟨hpool', hlength⟩ | ⟨_, rfl, hlength⟩
    · rw [hlength]
      exact h.newest hpool'
    · exact hlength
  · intro k setup pool hk hpool
    rcases (hsteps.setups hk).origin with ⟨setup₀, hk₀, _, _, heq⟩ | ⟨_, _, heq⟩
    · exact Nat.lt_of_lt_of_le (h.setupPools hk₀ (heq ▸ hpool)) hpools
    · have hnewest := h.newest (heq ▸ hpool)
      omega
  · intro l loop pool hl hpool
    rcases (hsteps.loops hl).origin with ⟨loop₀, hl₀, _, heq⟩ | ⟨_, _, heq⟩
    · exact Nat.lt_of_lt_of_le (h.loopPools hl₀ (heq ▸ hpool)) hpools
    · have hnewest := h.newest (heq ▸ hpool)
      omega

theorem registered {ok : State → Event → Prop} (hr : Reach step ok start s) : Registered s :=
  hr.invariant registered_start fun h _ hs => h.step hs

end ConsumerManager
end RabbitMQ

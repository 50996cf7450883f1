import RabbitMQ.Consumers.ConsumerManager.Budget
import RabbitMQ.Consumers.ConsumerManager.Holding

/-! A consumer whose `subscribe()` has resolved is tended: it consumes, or a loop of
`handleConsumerLoss` retries it, or a restore has yet to finish.

Three things break it, each because a setup or a channel ends without its consumer and nobody is
told: `recreateAll` only logs that a setup has failed, a setup may complete on a channel that closed
before it was watched, and a channel that closes while its pool does is left to a restore. -/

namespace RabbitMQ
namespace ConsumerManager

open Transition State

variable {s t : State} {event : Event} {consumer channel k l : Nat}

namespace State

/-- The loop is at work for the consumer: it drops it, or no other setup has begun since it last
looked and its pool is still installed. -/
def Retries (s : State) (consumer l : Nat) : Prop :=
  ∃ loop ∈ s.loops[l]?, loop.consumer = consumer ∧ (loop.stage = .dropping ∨
    (loop.stage = .sleeping ∨ loop.stage = .trying) ∧ loop.ownedPool = s.channelPool ∧
      loop.knownEpoch = s.epoch consumer)

instance : Decidable (s.Retries consumer l) :=
  inferInstanceAs (Decidable (∃ loop ∈ s.loops[l]?, _))

/-- A loop other than the caller of the setup is at work for the consumer. -/
def Retried (s : State) (consumer : Nat) (caller : Caller) : Prop :=
  ∃ l, l < s.loops.length ∧ caller ≠ .recovery l ∧ s.Retries consumer l

instance {caller : Caller} : Decidable (s.Retried consumer caller) :=
  inferInstanceAs (Decidable (∃ l, l < s.loops.length ∧ _))

/-- The consumer consumes, or is being retried, or waits for a restore whose `recreateAll` has not
finished. -/
def Tended (s : State) (consumer : Nat) : Prop :=
  s.Consuming consumer ∨ s.Retried consumer .subscribe ∨ s.channelPool = none ∨ s.restore ≠ none

instance : Decidable (s.Tended consumer) := inferInstanceAs (Decidable (_ ∨ _))

/-- A `recreateAll` is still to come. -/
def Due (s : State) : Prop := s.channelPool = none ∨ s.restore = some .ensuringExchange

instance : Decidable s.Due := inferInstanceAs (Decidable (_ ∨ _))

/-- The setup is one of a `recreateAll` that runs for the consumer on the pool that is installed. -/
def Recreates (s : State) (consumer k : Nat) : Prop :=
  s.restore = some .recreating ∧ ∃ setup ∈ s.setups[k]?, setup.consumer = consumer ∧
    setup.caller = .recreation ∧ setup.pool = s.channelPool ∧ ∀ ok, setup.stage ≠ .settled ok

instance : Decidable (s.Recreates consumer k) := inferInstanceAs (Decidable (_ ∧ _))

/-- The setup has its consume, on a channel that is open. -/
def Obtains (s : State) (setup : Setup) : Prop :=
  ∃ channel ∈ setup.stage.channel?, s.Carries setup.consumer channel

instance {setup : Setup} : Decidable (s.Obtains setup) :=
  inferInstanceAs (Decidable (∃ channel ∈ setup.stage.channel?, _))

end State

/-- The condition: a consumer is not left behind when a setup of `recreateAll` fails, when a setup
completes on a channel that it has lost, and when a channel closes with its pool. -/
def Tending (s : State) : Event → Prop
  | .setupFails k => s.Due ∨ ∀ setup ∈ s.setups[k]?, setup.caller = .recreation →
    setup.pool = s.channelPool → s.Ours setup.consumer → s.subscribed setup.consumer →
    s.Consuming setup.consumer ∨ s.Retried setup.consumer .recreation ∨
      ∃ j, j < s.setups.length ∧ j ≠ k ∧ s.Recreates setup.consumer j
  | .setupCompletes k => s.Due ∨ ∀ setup ∈ s.setups[k]?, s.Ours setup.consumer →
    (s.subscribed setup.consumer ∨ setup.caller = .subscribe) →
    s.Obtains setup ∨ s.Retried setup.consumer setup.caller ∨
      ∃ j, j < s.setups.length ∧ j ≠ k ∧ s.Recreates setup.consumer j
  | .channelCloses channel => s.Due ∨ ∀ c ∈ s.channels[channel]?, s.Ours c.owner →
    s.subscribed c.owner → s.channelOf c.owner = some channel → s.Consuming c.owner →
    s.poolOpen ∨ s.Retried c.owner .subscribe ∨
      ∃ j, j < s.setups.length ∧ s.Recreates c.owner j
  | _ => True

instance : Decidable (Tending s event) :=
  match event with
  | .setupFails _ | .setupCompletes _ | .channelCloses _ => inferInstanceAs (Decidable (_ ∨ _))
  | .subscribe _ | .unsubscribe _ | .unsubscribeCancelled _ | .channelOpened _ | .setupContinues _
  | .prefetched _ | .consumeOk _ _ | .setupCancelled _ | .setupReleased _ | .loopWakes _
  | .brokerCancels _ | .delivered _ | .handled _ | .drainTimesOut _ | .removeConsumer _ _
  | .terminated _ | .dropped _ | .poolInstalled | .recreateAll | .recreates | .recreated
  | .restoreFails | .connectionLost | .disconnect | .poolClosed => .isTrue trivial

/-- What every run keeps of the parts. -/
structure Standing (s : State) : Prop where
  registered : Registered s
  owned : Owned s
  bound : Bound s
  awaited : Awaited s
  answering : Answering s

theorem standing {ok : State → Event → Prop} (hr : Reach step ok start s) : Standing s where
  registered := registered hr
  owned := owned hr
  bound := bound hr
  awaited := awaited hr
  answering := answering hr

/-! ## Setups -/

/-- The stage of one setup is written. -/
theorem setup_of_modify {stage : SetupStage} {i : Nat} {setup : Setup}
    (hk : s.setups[k]? = some setup) (hstage : ∀ ok, setup.stage ≠ .settled ok)
    (hwritten : i = k → ∀ ok, stage ≠ .settled ok) : ∃ stage', (∀ ok, stage' ≠ .settled ok) ∧
      (s.setups.modify i fun setup => { setup with stage })[k]? =
        some { setup with stage := stage' } := by
  rw [List.getElem?_modify_of hk]
  split
  · next heq => exact ⟨stage, hwritten heq, rfl⟩
  · exact ⟨setup.stage, hstage, rfl⟩

/-- A setup of a registered consumer settles only by completing, or by failing. -/
theorem Bound.settles (h : Bound s) (hsteps : Steps s event t) {setup : Setup}
    (hk : s.setups[k]? = some setup) (hstage : ∀ ok, setup.stage ≠ .settled ok)
    (hours : s.Ours setup.consumer) :
    (∃ stage, (∀ ok, stage ≠ .settled ok) ∧ t.setups[k]? = some { setup with stage }) ∨
      event = .setupCompletes k ∨ event = .setupFails k := by
  have happend (setups : List Setup) : ∃ stage : SetupStage, (∀ ok, stage ≠ .settled ok) ∧
      (s.setups ++ setups)[k]? = some { setup with stage } :=
    ⟨setup.stage, hstage, List.getElem?_append_of hk _⟩
  cases hsteps with
  | subscribe | loopTries | recreates => exact .inl (happend _)
  | channelOpened => exact .inl (setup_of_modify hk hstage (by simp))
  | @setupContinues i setup' channel hi hstage' =>
    left
    unfold State.setupContinues
    split
    · have hk' : (s.releaseDedicatedChannel setup'.consumer).2.setups[k]? = some setup := by
        simpa using hk
      exact setup_of_modify hk' hstage (by simp)
    · split
      · next hcancelled =>
        rw [settleSetup_setups]
        refine setup_of_modify hk hstage ?_
        rintro rfl
        cases hk.symm.trans hi
        exact absurd hcancelled hours.2
      · split <;> exact setup_of_modify hk hstage (by simp)
  | prefetched | consumeOk => exact .inl (setup_of_modify hk hstage (by simp))
  | @setupCompletes i setup' channel consumerTag hi =>
    rcases eq_or_ne i k with rfl | hne
    · exact .inr (.inl rfl)
    · left
      unfold State.setupCompletes
      split
      · exact setup_of_modify hk hstage (by simp)
      · rw [settleSetup_setups]
        exact setup_of_modify (by simpa using hk) hstage (absurd · hne)
  | @setupCancelled i setup' channel consumerTag hi hstage' =>
    left
    rw [settleSetup_setups]
    refine setup_of_modify (by simpa using hk) hstage ?_
    rintro rfl
    cases hk.symm.trans hi
    exact absurd hours (h.leaving hk (by rw [hstage']; rfl))
  | @setupReleased i setup' released hi hstage' =>
    left
    rw [settleSetup_setups]
    refine setup_of_modify hk hstage ?_
    rintro rfl
    cases hk.symm.trans hi
    exact absurd hours (h.leaving hk (by rw [hstage']; rfl))
  | @setupFails i =>
    rcases eq_or_ne i k with rfl | hne
    · exact .inr (.inr rfl)
    · left
      rw [settleSetup_setups]
      exact setup_of_modify hk hstage (absurd · hne)
  | _ =>
    refine .inl ⟨setup.stage, hstage, ?_⟩
    simpa [setLoop, setDrop, modifyConsumer, closePool, State.connectionLost] using hk

/-! ## Loops -/

/-- A setup of a registered consumer that has settled well has completed. -/
theorem Bound.completes (h : Bound s) (hsteps : Steps s event t) {setup : Setup}
    (hk : s.setups[k]? = some setup) (hstage : ∀ ok, setup.stage ≠ .settled ok)
    (hours : s.Ours setup.consumer)
    (hafter : t.setups[k]? = some { setup with stage := .settled true }) :
    event = .setupCompletes k := by
  rcases h.settles hsteps hk hstage hours with ⟨stage, hunsettled, hk'⟩ | hevent | rfl
  · cases hk'.symm.trans hafter
    exact absurd rfl (hunsettled true)
  · exact hevent
  · cases hsteps with
    | setupFails =>
      rw [settleSetup_setups, List.getElem?_modify_of hk, if_pos rfl] at hafter
      cases hafter

theorem stillOurs_of {loop : Loop} (hours : s.Ours loop.consumer)
    (howned : loop.ownedPool = s.channelPool) : s.stillOurs loop :=
  decide_eq_true ⟨hours.1, by simpa using hours.2, howned.symm⟩

/-- A loop at work for a consumer stays so, until a setup of the consumer begins or its own
completes. -/
theorem Standing.retries_step (h : Standing s) (h' : Registered t) (hsteps : Steps s event t)
    (hours : t.Ours consumer) (hpool : t.channelPool = s.channelPool)
    (hretries : s.Retries consumer l) :
    t.Retries consumer l ∨ (∃ setup, Begins s event setup ∧ setup.consumer = consumer) ∨
      ∃ (k : Nat) (setup : Setup), event = .setupCompletes k ∧ s.setups[k]? = some setup ∧
        setup.caller = .recovery l := by
  obtain ⟨loop, hl, rfl, hwork⟩ := hretries
  have hlt := h.registered.loops hl
  have hbefore := hsteps.ours_before hlt hours
  have hnew (hge : s.loops.length ≤ l) : False :=
    Nat.not_lt.mpr hge (List.getElem?_eq_some_iff.mp hl).1
  obtain ⟨loop', hl', hconsumer, howned⟩ := hsteps.loop_kept hl
  have hdropping (hstage : loop'.stage = .dropping) : t.Retries loop.consumer l :=
    ⟨loop', hl', hconsumer, .inl hstage⟩
  have hsame (hstage : loop'.stage = .sleeping ∨ loop'.stage = .trying)
      (hknown : loop'.knownEpoch = loop.knownEpoch)
      (hcharge : loop.ownedPool = s.channelPool ∧ loop.knownEpoch = s.epoch loop.consumer) :
      t.Retries loop.consumer l ∨ ∃ setup, Begins s event setup ∧ setup.consumer = loop.consumer := by
    refine (hsteps.epoch_cases hlt).imp_left fun hepoch => ?_
    refine ⟨loop', hl', hconsumer, .inr ⟨hstage, ?_, ?_⟩⟩
    · rw [howned, hcharge.1, hpool]
    · rw [hknown, hcharge.2, hepoch]
  have hasleep (hstage : loop.stage ≠ .dropping) :
      loop.ownedPool = s.channelPool ∧ loop.knownEpoch = s.epoch loop.consumer := by
    rcases hwork with heq | ⟨-, hcharge⟩
    · exact absurd heq hstage
    · exact hcharge
  cases (h.answering.recovers hsteps).turns hl' with
  | same hl₀ =>
    cases hl.symm.trans hl₀
    rcases hwork with hstage | ⟨hstage, hcharge⟩
    · exact .inl (hdropping hstage)
    · exact (hsame hstage rfl hcharge).imp_right .inl
  | begins hge => exact (hnew hge).elim
  | tries hl₀ hsleeping heq =>
    cases hl.symm.trans hl₀
    have hknown := (hasleep (by simp [hsleeping])).2
    have hstale : loop'.knownEpoch ≠ loop.knownEpoch := by
      rw [heq, hknown]
      exact Nat.succ_ne_self _
    cases hsteps.loop_moves hl' with
    | kept hl₁ _ _ hknown' | again hl₁ _ _ _ _ _ _ _ _ hknown' =>
      cases hl.symm.trans hl₁
      exact absurd hknown' hstale
    | tries hl₁ hevent hstage hours hepoch =>
      cases hl.symm.trans hl₁
      refine .inr (.inl ⟨⟨loop.consumer, .recovery l, none, .notConnected⟩, ?_, rfl⟩)
      exact .recovery hevent rfl hl hstage hours hepoch rfl
    | begins hge => exact (hnew hge).elim
  | fenced hl₀ hsleeping heq =>
    cases hl.symm.trans hl₀
    have hended : loop'.stage = .ended := by rw [heq]
    cases hsteps.loops hl' with
    | same hl₁ =>
      cases hl.symm.trans hl₁
      cases hsleeping.symm.trans hended
    | tries _ _ _ _ heq' =>
      rw [heq'] at hended
      cases hended
    | fenced hl₁ _ hfence =>
      cases hl.symm.trans hl₁
      obtain ⟨hinstalled, hknown⟩ := hasleep (by simp [hsleeping])
      exact absurd ⟨stillOurs_of hbefore hinstalled, hknown.symm⟩ hfence
    | settles hl₁ hk hstage hcaller =>
      cases hsleeping.symm.trans (h.answering.trying hk hcaller hstage hl)
    | drops hl₁ hd hstage hcause =>
      cases hsleeping.symm.trans (h.answering.dropping hd hcause (by simp [hstage]) hl)
    | begins hge => exact (hnew hge).elim
  | @settles _ k setup ok hl₀ hk hcaller hstage hafter hsettles =>
    cases hl.symm.trans hl₀
    have htrying := h.answering.trying hk hcaller hstage hl
    have hcharge := hasleep (by simp [htrying])
    cases hsettles with
    | recovered hok =>
      subst hok
      obtain ⟨loop₀, hl₁, heq⟩ := h.awaited.callers hk hcaller
      cases hl.symm.trans hl₁
      have hevent := h.bound.completes hsteps hk hstage (heq ▸ hbefore) hafter
      exact .inr (.inr ⟨k, setup, hevent, hk, hcaller⟩)
    | again => exact (hsame (.inl rfl) rfl hcharge).imp_right .inl
    | givesUp => exact .inl (hdropping rfl)
    | fenced _ _ hfence => exact absurd (stillOurs_of hbefore hcharge.1) hfence
  | @lost _ d drop hl₀ hd hunder hcause hafter =>
    obtain ⟨loop₀, hl₁, heq⟩ := h.answering.owner hd hcause
    cases hl.symm.trans hl₁
    have hgone := h'.removed hafter rfl
    rw [heq] at hours
    exact absurd hours.1 hgone

/-- A loop that has just begun is at work. -/
theorem retried_of_begun (hl : t.loops[l]? =
    some ⟨consumer, t.channelPool, t.epoch consumer, 1, .sleeping⟩) :
    t.Retried consumer .subscribe :=
  ⟨l, (List.getElem?_eq_some_iff.mp hl).1, by simp, _, hl, rfl, .inr ⟨.inl rfl, rfl, rfl⟩⟩

/-- A consumer that the broker cancels is retried. -/
theorem Steps.cancel_retried {i : Nat} (h : Steps s (.brokerCancels i) t) {consume : Consume}
    (hi : s.consumes[i]? = some consume) (hours : t.Ours consume.consumer) :
    t.Retried consume.consumer .subscribe := by
  cases h with
  | @brokerCancels _ c hi' =>
    cases hi.symm.trans hi'
    have hbefore : consume.consumer ∈ s.activeConsumers ∧ !s.cancelled consume.consumer := by
      simpa [Ours, State.cancelled] using hours
    have hloses : State.handleConsumerLoss
        { s with consumes := s.consumes.set i { consume with active := false } } consume.consumer =
          _ := if_pos hbefore
    rw [hloses]
    exact retried_of_begun List.getElem?_concat_length

/-- A consumer whose channel closes alone is retried by its watchers. -/
theorem Steps.close_retried (h : Steps s (.channelCloses channel) t) {c : Channel}
    (hc : s.channels[channel]? = some c) (hopen : s.poolOpen)
    (hchannel : s.channelOf c.owner = some channel) (hwatched : 0 < c.watchers)
    (hours : t.Ours c.owner) : t.Retried c.owner .subscribe := by
  cases h with
  | @channelCloses _ c' hc' =>
    cases hc.symm.trans hc'
    let s₁ : State := { s with
      channels := s.channels.set channel { c with life := .closed }
      dedicatedChannels := s.dedicatedChannels.erase (c.pool, c.owner) }
    have hbefore : c.owner ∈ s₁.activeConsumers ∧ !s₁.cancelled c.owner := by
      simpa [Ours, State.cancelled] using hours
    have hlost : s.poolOpen ∧ s.consumers[c.owner]?.any (·.channel = some channel) := by
      obtain ⟨consumer, hconsumer, heq⟩ := channelOf_eq_some.mp hchannel
      exact ⟨hopen, (Option.any_eq_true _ _).mpr ⟨consumer, hconsumer, decide_eq_true heq⟩⟩
    have hcloses : s.channelCloses channel c =
        Nat.repeat (fun s : State => s.handleConsumerLoss c.owner) c.watchers s₁ := if_pos hlost
    rw [hcloses, handleConsumerLosses s₁ c.owner hbefore c.watchers]
    refine retried_of_begun (l := s.loops.length) ?_
    rw [List.getElem?_append_right (Nat.le_refl _), Nat.sub_self,
      List.getElem?_replicate_of_lt hwatched]
    rfl

/-! ## Restores -/

/-- A step that leaves no `recreateAll` to come either begins one, or leaves the pool and the restore
as they are. -/
theorem Steps.due_cases (h : Steps s event t) (hdue : ¬ t.Due) :
    (t.restore = some .recreating ∧ t.recreating = t.activeConsumers) ∨
      (¬ s.Due ∧ t.channelPool = s.channelPool ∧ (t.restore = s.restore ∨ event = .recreated)) := by
  cases h with
  | poolInstalled => exact absurd (.inr rfl) hdue
  | recreateAll => exact .inl ⟨rfl, rfl⟩
  | recreateAllLate hpool => exact absurd (.inl hpool) hdue
  | recreated hrestore =>
    refine .inr ⟨?_, rfl, .inr rfl⟩
    rintro (hnone | hensuring)
    · exact hdue (.inl hnone)
    · cases hensuring.symm.trans hrestore
  | restoreFails | connectionLost | poolClosed => exact absurd (.inl rfl) hdue
  | _ =>
    right
    simpa [Due, setLoop, setDrop, setSetup, modifyConsumer, State.channelOpened, State.consumeOk,
      tryAgain] using hdue

/-- A setup of `recreateAll` that does not settle is still one of the restore. -/
theorem Bound.recreates_step (h : Bound s) (hsteps : Steps s event t) (hdue : ¬ t.Due)
    (hpool : t.channelPool = s.channelPool) (hours : s.Ours consumer)
    (hcompletes : event ≠ .setupCompletes k) (hfails : event ≠ .setupFails k)
    (hrecreates : s.Recreates consumer k) : t.Recreates consumer k := by
  obtain ⟨hrestore, setup, hk, rfl, hcaller, hinstalled, hstage⟩ := hrecreates
  rcases h.settles hsteps hk hstage hours with ⟨stage, hunsettled, hk'⟩ | hevent | hevent
  · refine ⟨?_, _, hk', rfl, hcaller, hinstalled.trans hpool.symm, hunsettled⟩
    rcases hsteps.due_cases hdue with ⟨heq, -⟩ | ⟨-, -, heq | rfl⟩
    · exact heq
    · exact heq.trans hrestore
    · cases hsteps with
      | recreated _ hsettled =>
        obtain ⟨ok, heq⟩ := hsettled setup (List.mem_of_getElem? hk) hcaller hinstalled
        exact absurd heq (hstage ok)
  · exact absurd hevent hcompletes
  · exact absurd hevent hfails

/-! ## Consumers -/

/-- A setup completes for the consumer, which is registered. -/
structure Completes (s : State) (event : Event) (consumer : Nat) (k : Nat) (setup : Setup)
    (channel : Nat) : Prop where
  event : event = .setupCompletes k
  get : s.setups[k]? = some setup
  channel : setup.stage.channel? = some channel
  consumer : setup.consumer = consumer

/-- A consumer whose `subscribe()` has resolved was there before. -/
theorem Steps.subscribed_lt (h : Steps s event t) (hsubscribed : t.subscribed consumer) :
    consumer < s.consumers.length := by
  obtain ⟨c', hc', hresolved⟩ := (Option.any_eq_true _ _).mp hsubscribed
  cases h.consumers hc' with
  | registers _ _ heq =>
    rw [heq] at hresolved
    cases hresolved
  | same hc | begins hc | cancels hc | tracks hc | counts hc =>
    exact (List.getElem?_eq_some_iff.mp hc).1

/-- Only a setup that completes writes the channel of a consumer, and has its `subscribe()` resolve. -/
theorem Steps.subscribed_cases (h : Steps s event t) (hsubscribed : t.subscribed consumer) :
    (s.subscribed consumer ∧ t.channelOf consumer = s.channelOf consumer ∧
      (s.Ours consumer → ∀ {k : Nat} {setup : Setup}, event = .setupCompletes k →
        s.setups[k]? = some setup → setup.consumer ≠ consumer)) ∨
      ∃ k setup channel, Completes s event consumer k setup channel ∧
        t.channelOf consumer = some channel ∧ (s.subscribed consumer ∨
          setup.caller = .subscribe ∧ t.setups[k]? = some { setup with stage := .settled true }) := by
  obtain ⟨c', hc', hresolved⟩ := (Option.any_eq_true _ _).mp hsubscribed
  have hbefore {c : Consumer} (hc : s.consumers[consumer]? = some c) (h : c.subscribed) :
      s.subscribed consumer := (Option.any_eq_true _ _).mpr ⟨c, hc, h⟩
  have hsame {c : Consumer} (hc : s.consumers[consumer]? = some c) (heq : c'.channel = c.channel) :
      t.channelOf consumer = s.channelOf consumer := by
    rw [channelOf, channelOf, hc, hc', Option.bind_some, Option.bind_some, heq]
  cases h.consumers hc' with
  | same hc hnone =>
    refine .inl ⟨hbefore hc hresolved, hsame hc rfl, fun hours {k setup} hevent hk hconsumer => ?_⟩
    subst hevent
    cases h with
    | setupCompletes hk' hstage =>
      cases hk.symm.trans hk'
      exact (hnone rfl hk hstage hconsumer).elim (absurd hours.1) hours.2
  | registers _ _ heq =>
    rw [heq] at hresolved
    cases hresolved
  | begins hc hbegins _ heq =>
    exact .inl ⟨hbefore hc (by rw [heq] at hresolved; exact hresolved), hsame hc (by rw [heq]),
      fun _ {k setup} hevent => absurd hevent (hbegins.not_completes k)⟩
  | cancels hc hevent heq =>
    refine .inl ⟨hbefore hc (by rw [heq] at hresolved; exact hresolved), hsame hc (by rw [heq]),
      fun _ {k setup} hcompletes => ?_⟩
    rcases hevent with hevent | ⟨_, hevent⟩ <;> cases hevent.symm.trans hcompletes
  | counts hc hevent heq =>
    refine .inl ⟨hbefore hc (by rw [heq] at hresolved; exact hresolved), hsame hc (by rw [heq]),
      fun _ {k setup} hcompletes => ?_⟩
    rcases hevent with ⟨_, hevent⟩ | ⟨_, hevent⟩ <;> cases hevent.symm.trans hcompletes
  | @tracks c k setup channel consumerTag hc hevent hk hstage hconsumer hactive hcancelled heq =>
    refine .inr ⟨k, setup, channel, ⟨hevent, hk, by rw [hstage]; rfl, hconsumer⟩, ?_, ?_⟩
    · exact channelOf_eq_some.mpr ⟨c', hc', by rw [heq]⟩
    · rw [heq] at hresolved
      rcases (Bool.or_eq_true _ _).mp hresolved with hresolved | hcaller
      · exact .inl (hbefore hc hresolved)
      · refine .inr ⟨of_decide_eq_true hcaller, ?_⟩
        subst hevent hconsumer
        cases h with
        | setupCompletes hk' hstage' =>
          cases hk.symm.trans hk'
          have hours : ¬ (setup.consumer ∉ s.activeConsumers ∨ s.cancelled setup.consumer) := by
            rw [not_or, not_not]
            exact ⟨hactive, hcancelled⟩
          rw [State.setupCompletes, if_neg hours, settleSetup_setups,
            List.getElem?_modify_of (by simpa using hk), if_pos rfl]

/-- A channel that carries the consumer is watched. -/
theorem Bound.consuming (h : Bound t) (hchannel : t.channelOf consumer = some channel)
    (hcarries : t.Carries consumer channel) : t.Consuming consumer := by
  obtain ⟨c, hc, -, hwatched⟩ := h.channel hchannel
  exact ⟨channel, hchannel, hcarries, c, hc, hwatched⟩

/-- Once no `recreateAll` is to come, the consumer is tended, or its setup is one of those that
`recreateAll` awaits. -/
def Secured (s : State) (consumer : Nat) : Prop :=
  s.Consuming consumer ∨ s.Retried consumer .subscribe ∨
    (s.restore = some .recreating ∧ consumer ∈ s.recreating) ∨ ∃ k, s.Recreates consumer k

def AllSecured (s : State) : Prop :=
  ∀ consumer, s.Ours consumer → s.subscribed consumer → ¬ s.Due → Secured s consumer

/-- A consumer whose setup begins is in the hands of whoever runs it. -/
theorem Standing.begins_secured (h : Standing s) (hsteps : Steps s event t) {setup : Setup}
    (hbegins : Begins s event setup) (hlt : setup.consumer < s.consumers.length)
    (hdue : ¬ t.Due) (hpool : t.channelPool = s.channelPool) : Secured t setup.consumer := by
  have hepoch := hsteps.epoch_begins h.registered hbegins
  cases hbegins with
  | subscribe _ _ hnew =>
    rw [hnew] at hlt
    exact absurd hlt (Nat.lt_irrefl _)
  | @recovery l loop hevent _ hl hstage hours hknown hconsumer =>
    subst hevent
    cases hsteps with
    | loopTries hl' =>
      cases hl.symm.trans hl'
      have hlt' := (List.getElem?_eq_some_iff.mp hl).1
      have hl'' : (s.tryAgain l loop).loops[l]? = some { loop with
          knownEpoch := s.epoch loop.consumer + 1, stage := .trying } :=
        List.getElem?_set_self hlt'
      refine .inr (.inl ⟨l, ?_, by simp, _, hl'', hconsumer.symm, .inr ⟨.inr rfl, ?_, ?_⟩⟩)
      · exact (List.getElem?_eq_some_iff.mp hl'').1
      · exact (channelPool_of_ours hours).trans hpool.symm
      · rw [hepoch, hconsumer]
    | loopEnds hl' _ _ hfence =>
      cases hl.symm.trans hl'
      exact absurd ⟨hours, hknown⟩ hfence
  | recreation hevent _ hrecreating =>
    subst hevent
    cases hsteps with
    | recreates hrecreating' =>
      cases hrecreating.symm.trans hrecreating'
      have hrestore : s.restore = some .recreating :=
        (h.bound.recreating (by simp [hrecreating])).resolve_left fun hnone =>
          hdue (.inl (hpool.trans hnone))
      refine .inr (.inr (.inr ⟨s.setups.length, hrestore, _, List.getElem?_concat_length, rfl, rfl,
        hpool.symm, fun ok hsettled => ?_⟩))
      rcases getDedicatedChannel_cases s setup.consumer with heq | ⟨_, heq⟩ | ⟨_, heq⟩ <;>
        cases heq.symm.trans hsettled

/-- A step after which no `recreateAll` is to come, and which keeps the pool and the consumer. -/
structure Keeping (s : State) (event : Event) (t : State) (consumer : Nat) : Prop where
  steps : Steps s event t
  before : Standing s
  after : Standing t
  ours : t.Ours consumer
  lt : consumer < s.consumers.length
  due : ¬ t.Due
  pool : t.channelPool = s.channelPool

namespace Keeping

variable (h : Keeping s event t consumer)
include h

theorem ours_before : s.Ours consumer := h.steps.ours_before h.lt h.ours

/-- A consumer that is retried stays in the hands of that loop, unless its setup completes. -/
theorem retried {caller : Caller} (hretried : s.Retried consumer caller)
    (hcompletes : ∀ {k : Nat} {setup : Setup}, event = .setupCompletes k →
      s.setups[k]? = some setup → setup.consumer = consumer → setup.caller = caller) :
    Secured t consumer := by
  obtain ⟨l, hlt, hother, hretries⟩ := hretried
  have hwork := hretries
  obtain ⟨loop, hl, hconsumer, -⟩ := hwork
  rcases h.before.retries_step h.after.registered h.steps h.ours h.pool hretries with
    hretries | ⟨setup, hbegins, rfl⟩ | ⟨k, setup, hevent, hk, hcaller⟩
  · exact .inr (.inl ⟨l, Nat.lt_of_lt_of_le hlt h.steps.loops_length, by simp, hretries⟩)
  · exact h.before.begins_secured h.steps hbegins h.lt h.due h.pool
  · obtain ⟨loop', hl', hconsumer'⟩ := h.before.awaited.callers hk hcaller
    cases hl.symm.trans hl'
    have heq := hcompletes hevent hk (hconsumer'.symm.trans hconsumer)
    exact absurd (heq.symm.trans hcaller) hother

/-- What a consumer consumes on is lost to the broker alone. -/
theorem consuming (hchannel : t.channelOf consumer = some channel)
    (hcarries : s.Carries consumer channel) :
    t.Consuming consumer ∨ event = .channelCloses channel ∨ t.Retried consumer .subscribe := by
  rcases h.before.bound.carries_step h.before.owned h.before.registered h.steps h.ours h.pool
    hcarries with hcarries | hevent | ⟨i, consume, rfl, hi, rfl⟩
  · exact .inl (h.after.bound.consuming hchannel hcarries)
  · exact .inr (.inl hevent)
  · exact .inr (.inr (h.steps.cancel_retried hi h.ours))

theorem recreates (hcompletes : event ≠ .setupCompletes k) (hfails : event ≠ .setupFails k)
    (hrecreates : s.Recreates consumer k) : Secured t consumer :=
  .inr (.inr (.inr ⟨k, h.before.bound.recreates_step h.steps h.due h.pool h.ours_before hcompletes
    hfails hrecreates⟩))

/-- A setup that completes leaves its consumer consuming, or in other hands. -/
theorem completes (hok : Tending s event) (hdue : ¬ s.Due) {setup : Setup}
    (hcompletes : Completes s event consumer k setup channel)
    (hchannel : t.channelOf consumer = some channel)
    (hresolved : s.subscribed consumer ∨ setup.caller = .subscribe) : Secured t consumer := by
  obtain ⟨rfl, hk, hstage, rfl⟩ := hcompletes
  rcases (hok.resolve_left hdue) setup hk h.ours_before hresolved with
    ⟨channel', hstage', hcarries⟩ | hretried | ⟨j, -, hne, hrecreates⟩
  · cases hstage.symm.trans hstage'
    rcases h.consuming hchannel hcarries with hconsuming | hevent | hretried
    · exact .inl hconsuming
    · cases hevent
    · exact .inr (.inl hretried)
  · refine h.retried hretried fun {k' setup'} hevent hk' _ => ?_
    cases hevent
    cases hk.symm.trans hk'
    rfl
  · exact h.recreates (by simpa using hne.symm) (by simp) hrecreates

/-- What a consumer consumes on is watched, so it is not lost in silence. -/
theorem loses (hok : Tending s event) (hdue : ¬ s.Due) (hsubscribed : s.subscribed consumer)
    (hchannel : t.channelOf consumer = s.channelOf consumer)
    (hcompletes : ∀ {k : Nat} {setup : Setup}, event = .setupCompletes k →
      s.setups[k]? = some setup → setup.consumer ≠ consumer)
    (hconsuming : s.Consuming consumer) : Secured t consumer := by
  obtain ⟨channel, hbefore, hcarries, c, hc, hwatched⟩ := hconsuming
  rcases h.consuming (hchannel.trans hbefore) hcarries with hconsuming' | rfl | hretried
  · exact .inl hconsuming'
  · obtain ⟨c₀, hc₀, rfl, -⟩ := h.before.bound.channel hbefore
    cases hc.symm.trans hc₀
    rcases (hok.resolve_left hdue) c hc h.ours_before hsubscribed hbefore
      ⟨channel, hbefore, hcarries, c, hc, hwatched⟩ with hopen | hretried | ⟨j, -, hrecreates⟩
    · exact .inr (.inl (h.steps.close_retried hc hopen hbefore hwatched h.ours))
    · exact h.retried hretried fun {k setup} hevent => by cases hevent
    · exact h.recreates (by simp) (by simp) hrecreates
  · exact .inr (.inl hretried)

/-- A setup of `recreateAll` that fails leaves its consumer in other hands. -/
theorem fails (hok : Tending s (.setupFails k)) (hdue : ¬ s.Due) (hevent : event = .setupFails k)
    (hsubscribed : s.subscribed consumer) (hchannel : t.channelOf consumer = s.channelOf consumer)
    (hrecreates : s.Recreates consumer k) : Secured t consumer := by
  obtain ⟨-, setup, hk, rfl, hcaller, hpool, -⟩ := hrecreates
  subst hevent
  rcases (hok.resolve_left hdue) setup hk hcaller hpool h.ours_before hsubscribed with
    hconsuming | hretried | ⟨j, -, hne, hrecreates⟩
  · exact h.loses hok hdue hsubscribed hchannel (by simp) hconsuming
  · exact h.retried hretried fun {k setup} hevent => by cases hevent
  · exact h.recreates (by simp) (by simpa using hne.symm) hrecreates

end Keeping

theorem AllSecured.step (hsecured : AllSecured s) (h : Standing s) (h' : Standing t)
    (hok : Tending s event) (hs : step s event = some t) : AllSecured t := by
  intro consumer hours hsubscribed hdue
  have hsteps := step_cases hs
  rcases hsteps.due_cases hdue with ⟨hrestore, hall⟩ | ⟨hdue', hpool, -⟩
  · exact .inr (.inr (.inl ⟨hrestore, hall ▸ hours.1⟩))
  have hkeeping : Keeping s event t consumer :=
    ⟨hsteps, h, h', hours, hsteps.subscribed_lt hsubscribed, hdue, hpool⟩
  have hbefore := hkeeping.ours_before
  rcases hsteps.subscribed_cases hsubscribed with
    ⟨hresolved, hchannel, hnone⟩ | ⟨k, setup, channel, hcompletes, hchannel, hresolved⟩
  · rcases hsecured consumer hbefore hresolved hdue' with
      hconsuming | hretried | ⟨hrestore, hmem⟩ | ⟨k, hrecreates⟩
    · exact hkeeping.loses hok hdue' hresolved hchannel (hnone hbefore) hconsuming
    · exact hkeeping.retried hretried fun hevent hk hconsumer =>
        absurd hconsumer (hnone hbefore hevent hk)
    · cases recreates_of_recreating hs (List.ne_nil_of_mem hmem)
      cases hsteps with
      | @recreates X rest hrecreating =>
        rw [hrecreating] at hmem
        rcases List.mem_cons.mp hmem with rfl | hmem
        · have hbegins : Begins s .recreates ⟨consumer, .recreation, none, .notConnected⟩ :=
            .recreation rfl rfl hrecreating
          exact h.begins_secured (.recreates hrecreating) hbegins hkeeping.lt hdue hpool
        · exact .inr (.inr (.inl ⟨by simpa using hrestore, by simpa using hmem⟩))
    · by_cases hfails : event = .setupFails k
      · exact hkeeping.fails (hfails ▸ hok) hdue' hfails hresolved hchannel hrecreates
      · refine hkeeping.recreates (fun hevent => ?_) hfails hrecreates
        obtain ⟨-, setup, hk, hconsumer, -⟩ := hrecreates
        exact hnone hbefore hevent hk hconsumer
  · exact hkeeping.completes hok hdue' hcompletes hchannel (hresolved.imp_right And.left)

theorem allSecured_start : AllSecured start := by
  intro consumer hours
  cases hours.1

theorem allSecured (hr : Reach step Tending start s) : AllSecured s :=
  hr.invariant_of standing allSecured_start fun h h' hsecured hok hs => hsecured.step h h' hok hs

end ConsumerManager
end RabbitMQ

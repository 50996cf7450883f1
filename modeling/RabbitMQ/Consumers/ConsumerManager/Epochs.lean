import RabbitMQ.Consumers.ConsumerManager.Registry

/-! The epoch of a consumer counts the setups that were run for it, so a loop that knows the epoch
knows that no other setup has begun. -/

namespace RabbitMQ
namespace ConsumerManager

open Transition State

variable {s t : State} {event : Event} {consumer k l : Nat}

/-- What only goes forward in a consumer. -/
structure Consumer.Later (c c' : Consumer) : Prop where
  epoch : c.epoch ≤ c'.epoch
  cancelled : c.cancelled → c'.cancelled

theorem Consumer.Later.refl (c : Consumer) : c.Later c := ⟨Nat.le_refl _, id⟩

theorem Steps.consumer_later (h : Steps s event t) (hlt : consumer < s.consumers.length)
    {c' : Consumer} (hc : t.consumers[consumer]? = some c') :
    ∃ c, s.consumers[consumer]? = some c ∧ c.Later c' := by
  cases h.consumers hc with
  | same hc₀ => exact ⟨c', hc₀, .refl c'⟩
  | registers _ hnew =>
    rw [hnew] at hlt
    exact absurd hlt (Nat.lt_irrefl _)
  | @begins c _ hc₀ _ _ heq =>
    rw [heq]
    exact ⟨c, hc₀, Nat.le_succ _, id⟩
  | @cancels c hc₀ _ heq =>
    rw [heq]
    exact ⟨c, hc₀, Nat.le_refl _, fun _ => rfl⟩
  | @tracks c _ _ _ _ hc₀ _ _ _ _ _ _ heq | @counts c _ hc₀ _ heq =>
    rw [heq]
    exact ⟨c, hc₀, Nat.le_refl _, id⟩

/-- A consumer stays, and goes forward. -/
theorem Steps.later (h : Steps s event t) {c : Consumer} (hc : s.consumers[consumer]? = some c) :
    ∃ c', t.consumers[consumer]? = some c' ∧ c.Later c' := by
  have hlt := (List.getElem?_eq_some_iff.mp hc).1
  have hle : s.consumers.length ≤ t.consumers.length := by
    rw [h.consumers_length]
    exact Nat.le_add_right _ _
  have hc' := List.getElem?_eq_getElem (Nat.lt_of_lt_of_le hlt hle)
  obtain ⟨c₀, hc₀, hlater⟩ := h.consumer_later hlt hc'
  cases hc.symm.trans hc₀
  exact ⟨_, hc', hlater⟩

theorem epoch_of_get {c : Consumer} (hc : s.consumers[consumer]? = some c) :
    s.epoch consumer = c.epoch := by
  rw [epoch, hc]
  rfl

theorem Steps.epoch_le (h : Steps s event t) (consumer : Nat) :
    s.epoch consumer ≤ t.epoch consumer := by
  cases hc : s.consumers[consumer]? with
  | none =>
    rw [epoch, hc]
    exact Nat.zero_le _
  | some c =>
    obtain ⟨c', hc', hlater⟩ := h.later hc
    rw [epoch_of_get hc, epoch_of_get hc']
    exact hlater.epoch

theorem Steps.cancelled (h : Steps s event t) (hcancelled : s.cancelled consumer) :
    t.cancelled consumer := by
  obtain ⟨c, hc, hset⟩ := (Option.any_eq_true _ _).mp hcancelled
  obtain ⟨c', hc', hlater⟩ := h.later hc
  exact (Option.any_eq_true _ _).mpr ⟨c', hc', hlater.cancelled hset⟩

/-- A setup that begins is counted. -/
theorem runSetup_epoch (caller : Caller) (hlt : consumer < s.consumers.length) :
    (s.runSetup consumer caller).epoch consumer = s.epoch consumer + 1 := by
  have hc := List.getElem?_eq_getElem hlt
  rw [epoch, epoch, runSetup, modifyConsumer, hc, List.getElem?_modify_of hc, if_pos rfl]
  rfl

theorem Steps.epoch_begins (h : Steps s event t) (hreg : Registered s) {setup : Setup}
    (hbegins : Begins s event setup) : t.epoch setup.consumer = s.epoch setup.consumer + 1 := by
  cases hbegins with
  | subscribe hevent _ hnew =>
    subst hevent
    cases h with
    | subscribe =>
      have hnone : s.epoch s.consumers.length = 0 := by
        rw [epoch, List.getElem?_eq_none (Nat.le_refl _)]
        rfl
      rw [hnew, runSetup_epoch, hnone]
      · simp [epoch]
      · simp
  | recovery hevent _ hl _ hours hepoch hconsumer =>
    subst hevent
    cases h with
    | loopTries hl' =>
      cases hl.symm.trans hl'
      rw [hconsumer]
      exact runSetup_epoch _ (hreg.loops hl)
    | loopEnds hl' _ _ hfence =>
      cases hl.symm.trans hl'
      exact absurd ⟨hours, hepoch⟩ hfence
  | recreation hevent _ hrecreating =>
    subst hevent
    cases h with
    | recreates hrecreating' =>
      cases hrecreating.symm.trans hrecreating'
      exact runSetup_epoch _
        (hreg.active _ (hreg.recreating _ (hrecreating ▸ List.mem_cons_self)))

/-! ## Loops that sleep -/

/-- The consumer loses a consume or a channel in this step. -/
inductive Loses (s t : State) (consumer : Nat) : Event → Prop
  | cancelled {i : Nat} {c : Consume} (hi : s.consumes[i]? = some c) (hconsumer : c.consumer = consumer)
      (hactive : c.active) (hlive : s.live c.channel)
      (hafter : t.consumes[i]? = some { c with active := false }) :
      Loses s t consumer (.brokerCancels i)
  | closed {channel : Nat} {c : Channel} (hc : s.channels[channel]? = some c)
      (howner : c.owner = consumer) (hlife : c.life ≠ .closed)
      (hafter : t.channels[channel]? = some { c with life := .closed }) :
      Loses s t consumer (.channelCloses channel)

/-- The setup that may settle in a step. -/
def Event.settles : Event → Option Nat
  | .setupContinues k | .setupCompletes k | .setupCancelled k | .setupReleased k
  | .setupFails k => some k
  | _ => none

/-- What a step can do to a loop, with the event that does it. -/
inductive LoopMoves (s t : State) (event : Event) (l : Nat) (loop' : Loop) : Prop
  | kept {loop : Loop} (hl : s.loops[l]? = some loop) (hconsumer : loop'.consumer = loop.consumer)
      (howned : loop'.ownedPool = loop.ownedPool) (hknown : loop'.knownEpoch = loop.knownEpoch)
      (hsleeping : loop'.stage = .sleeping → loop.stage = .sleeping)
  /-- its setup has just failed -/
  | again {loop : Loop} {k : Nat} {setup : Setup} (hl : s.loops[l]? = some loop)
      (hevent : event.settles = some k) (hk : s.setups[k]? = some setup)
      (hcaller : setup.caller = .recovery l) (hstage : ∀ ok, setup.stage ≠ .settled ok)
      (hasking : ∀ channel consumerTag, setup.stage ≠ .consumed channel consumerTag)
      (hfailed : t.setups[k]? = some { setup with stage := .settled false })
      (hconsumer : loop'.consumer = loop.consumer) (howned : loop'.ownedPool = loop.ownedPool)
      (hknown : loop'.knownEpoch = loop.knownEpoch)
  | tries {loop : Loop} (hl : s.loops[l]? = some loop) (hevent : event = .loopWakes l)
      (hstage : loop.stage = .sleeping) (hours : s.stillOurs loop)
      (hepoch : s.epoch loop.consumer = loop.knownEpoch)
      (heq : loop' = { loop with knownEpoch := s.epoch loop.consumer + 1, stage := .trying })
  | begins (hl : s.loops.length ≤ l) (hloses : Loses s t loop'.consumer event)
      (howned : loop'.ownedPool = s.channelPool)
      (hknown : loop'.knownEpoch = s.epoch loop'.consumer)

theorem LoopMoves.same {loop' : Loop} (hl : s.loops[l]? = some loop') :
    LoopMoves s t event l loop' :=
  .kept hl rfl rfl rfl id

theorem LoopMoves.stops {loop : Loop} {stage : LoopStage} (hl : s.loops[l]? = some loop)
    (hstage : stage ≠ .sleeping) : LoopMoves s t event l { loop with stage } :=
  .kept hl rfl rfl rfl fun hsleeping => absurd hsleeping hstage

/-- The setup settles in `s₀`, which has the setups and the loops of `s`. -/
theorem LoopMoves.of_settleSetup {s₀ : State} {setup : Setup} {ok : Bool} {loop' : Loop}
    (hevent : event.settles = some k) (hk : s.setups[k]? = some setup)
    (hstage : ∀ ok, setup.stage ≠ .settled ok)
    (hasking : ok = false → ∀ channel consumerTag, setup.stage ≠ .consumed channel consumerTag)
    (hsetups : s₀.setups = s.setups) (hloops : s₀.loops = s.loops)
    (h : (s₀.settleSetup k setup ok).loops[l]? = some loop') :
    LoopMoves s (s₀.settleSetup k setup ok) event l loop' := by
  rcases settleSetup_loops h with h | ⟨loop, hl, hcaller, hsettles⟩
  · exact .same (hloops ▸ h)
  · rw [hloops] at hl
    cases hsettles with
    | again hok hattempt =>
      subst hok
      refine .again hl hevent hk hcaller hstage (hasking rfl) ?_ rfl rfl rfl
      rw [settleSetup_setups, hsetups, List.getElem?_modify_of hk, if_pos rfl]
    | recovered | givesUp | fenced => exact .stops hl nofun

theorem Steps.loop_moves (h : Steps s event t) {loop' : Loop} (hl : t.loops[l]? = some loop') :
    LoopMoves s t event l loop' := by
  cases h with
  | @setupContinues k setup channel hk hstage =>
    unfold State.setupContinues at hl ⊢
    split at hl
    · exact .same (by simpa [setSetup] using hl)
    · next hactive =>
      rw [if_neg hactive]
      split at hl
      · next hcancelled =>
        rw [if_pos hcancelled]
        exact .of_settleSetup rfl hk (by simp [hstage]) (by simp [hstage]) rfl rfl hl
      · split at hl <;> exact .same hl
  | @setupCompletes k setup channel consumerTag hk hstage =>
    unfold State.setupCompletes at hl ⊢
    split at hl
    · exact .same hl
    · next hours =>
      rw [if_neg hours]
      exact .of_settleSetup rfl hk (by simp [hstage]) (by simp) (by simp) (by simp) hl
  | setupCancelled hk hstage =>
    exact .of_settleSetup rfl hk (by simp [hstage]) (by simp [hstage]) (by simp) (by simp) hl
  | setupReleased hk hstage =>
    exact .of_settleSetup rfl hk (by simp [hstage]) (by simp [hstage]) rfl rfl hl
  | @setupFails k setup hk hstage =>
    have hnot : ∀ {stage : SetupStage}, stage.fails = false → setup.stage ≠ stage := by
      rintro stage hfails rfl
      rw [hfails] at hstage
      cases hstage
    exact .of_settleSetup rfl hk (fun _ => hnot rfl) (fun _ _ _ => hnot rfl) rfl rfl hl
  | loopTries hj hstage _ hours hepoch =>
    rcases List.getElem?_set_cases hl with ⟨rfl, rfl⟩ | ⟨-, hl⟩
    · exact .tries hj rfl hstage hours hepoch rfl
    · exact .same hl
  | loopEnds hj =>
    rcases setLoop_loops hj hl with hl | ⟨rfl, rfl⟩
    · exact .same hl
    · exact .stops hj (by simp)
  | @brokerCancels i c hi hactive hlive =>
    rcases handleConsumerLoss_loops hl with hl | ⟨hge, -, -, rfl⟩
    · exact .same hl
    · refine .begins hge (.cancelled hi rfl hactive hlive ?_) rfl rfl
      rw [(handleConsumerLoss_frame _ _).2.2.2.2.2.2.2.1]
      exact List.getElem?_set_self (List.getElem?_eq_some_iff.mp hi).1
  | @channelCloses channel c hc hlife =>
    rcases channelCloses_loops hl with hl | ⟨hge, -, -, rfl⟩
    · exact .same hl
    · refine .begins hge (.closed hc rfl hlife ?_) rfl rfl
      have hlt := (List.getElem?_eq_some_iff.mp hc).1
      rcases channelCloses_cases s channel c with heq | ⟨_, _, _, _, heq⟩ <;> simp [heq, hlt]
  | @dropped d drop released hd hstage =>
    unfold State.dropped at hl ⊢
    dsimp only at hl
    split at hl
    · exact .same hl
    · obtain ⟨loop, hloop, rfl⟩ := List.getElem?_modify_cases hl
      split
      · exact .stops hloop (by simp)
      · exact .same hloop
    · exact .same hl
  | _ =>
    exact .same (by
      simpa [setDrop, setSetup, modifyConsumer, dropConsumer, closePool, State.connectionLost,
        State.channelOpened, State.consumeOk] using hl)

/-! ## What loops know -/

/-- Loops know epochs that have been, and have one setup in flight at most, which they await. -/
structure Awaited (s : State) : Prop where
  known : ∀ {l : Nat} {loop : Loop}, s.loops[l]? = some loop →
    loop.knownEpoch ≤ s.epoch loop.consumer
  callers : ∀ {k : Nat} {setup : Setup} {l : Nat}, s.setups[k]? = some setup →
    setup.caller = .recovery l → ∃ loop, s.loops[l]? = some loop ∧ loop.consumer = setup.consumer
  asleep : ∀ {l : Nat} {loop : Loop}, s.loops[l]? = some loop → loop.stage = .sleeping →
    ∀ {k : Nat} {setup : Setup}, s.setups[k]? = some setup → setup.caller = .recovery l →
    ∃ ok, setup.stage = .settled ok
  one : ∀ {j k : Nat} {setup setup' : Setup} {l : Nat}, s.setups[j]? = some setup →
    s.setups[k]? = some setup' → setup.caller = .recovery l → setup'.caller = .recovery l →
    (∀ ok, setup.stage ≠ .settled ok) → (∀ ok, setup'.stage ≠ .settled ok) → j = k

theorem awaited_start : Awaited start := ⟨nofun, nofun, nofun, nofun⟩

/-- A setup that is in flight was, or has just begun. -/
theorem SetupCases.in_flight {setup' : Setup} (h : SetupCases s t event k setup')
    (hstage : ∀ ok, setup'.stage ≠ .settled ok) :
    (∃ setup, s.setups[k]? = some setup ∧ setup'.caller = setup.caller ∧
      setup'.consumer = setup.consumer ∧ ∀ ok, setup.stage ≠ .settled ok) ∨
    (k = s.setups.length ∧ Begins s event setup') := by
  cases h with
  | same hk => exact .inl ⟨setup', hk, rfl, rfl, hstage⟩
  | @moves setup stage hk hmove heq =>
    refine .inl ⟨setup, hk, by rw [heq], by rw [heq], fun ok hsettled => ?_⟩
    cases hmove with
    | fails hunsettled => exact hunsettled ok hsettled
    | completes => exact hstage true (by rw [heq])
    | opened h | releasing h | prefetching h | skipsPrefetch h | consuming h | consumed h
    | cancelling h =>
      rw [hsettled] at h
      cases h
  | begins hk hbegins => exact .inr ⟨hk, hbegins⟩

/-- A loop runs the setup with no other in flight. -/
theorem Awaited.begins_alone (h : Awaited s) {setup setup' : Setup} (hbegins : Begins s event setup)
    (hcaller : setup.caller = .recovery l) (hk : s.setups[k]? = some setup')
    (hcaller' : setup'.caller = .recovery l) (hstage : ∀ ok, setup'.stage ≠ .settled ok) : False := by
  cases hbegins with
  | recovery _ hcaller₀ hl hsleeping =>
    cases hcaller.symm.trans hcaller₀
    obtain ⟨ok, hsettled⟩ := h.asleep hl hsleeping hk hcaller'
    exact hstage ok hsettled
  | subscribe _ hcaller₀ | recreation _ hcaller₀ => cases hcaller.symm.trans hcaller₀

theorem Awaited.step (h : Awaited s) (hreg : Registered s) (hsteps : Steps s event t) :
    Awaited t where
  known := by
    intro l loop' hl
    cases hsteps.loop_moves hl with
    | @kept loop hl hconsumer _ hknown | @again loop _ _ hl _ _ _ _ _ _ hconsumer _ hknown =>
      rw [hconsumer, hknown]
      exact Nat.le_trans (h.known hl) (hsteps.epoch_le _)
    | @tries loop hl hevent hstage hours hepoch heq =>
      have hbegins : Begins s event ⟨loop.consumer, .recovery l, none, .notConnected⟩ :=
        .recovery hevent rfl hl hstage hours hepoch rfl
      rw [heq]
      exact Nat.le_of_eq (hsteps.epoch_begins hreg hbegins).symm
    | begins _ _ _ hknown =>
      rw [hknown]
      exact hsteps.epoch_le _
  callers := by
    intro k setup' l hk hcaller
    have hkept : ∀ {loop : Loop}, s.loops[l]? = some loop →
        ∃ loop', t.loops[l]? = some loop' ∧ loop'.consumer = loop.consumer := by
      intro loop hl
      obtain ⟨loop', hl', hconsumer, -⟩ := hsteps.loop_kept hl
      exact ⟨loop', hl', hconsumer⟩
    rcases (hsteps.setups hk).origin with ⟨setup, hk, hconsumer, heq, -⟩ | ⟨-, hbegins, -⟩
    · obtain ⟨loop, hl, hloop⟩ := h.callers hk (heq ▸ hcaller)
      obtain ⟨loop', hl', hloop'⟩ := hkept hl
      exact ⟨loop', hl', hloop'.trans (hloop.trans hconsumer.symm)⟩
    · cases hbegins with
      | recovery _ hcaller' hl _ _ _ hconsumer =>
        cases hcaller.symm.trans hcaller'
        obtain ⟨loop', hl', hloop'⟩ := hkept hl
        exact ⟨loop', hl', hloop'.trans hconsumer.symm⟩
      | subscribe _ hcaller' | recreation _ hcaller' => cases hcaller.symm.trans hcaller'
  asleep := by
    intro l loop' hl hstage k setup' hk hcaller
    by_contra hflight
    rw [not_exists] at hflight
    rcases (hsteps.setups hk).in_flight hflight with ⟨setup, hk₀, heq, -, hstage₀⟩ | ⟨-, hbegins⟩
    · rw [heq] at hcaller
      cases hsteps.loop_moves hl with
      | kept hl₀ _ _ _ hsleeping =>
        obtain ⟨ok, hsettled⟩ := h.asleep hl₀ (hsleeping hstage) hk₀ hcaller
        exact hstage₀ ok hsettled
      | again _ _ hj hcaller' hstage' _ hfailed =>
        -- the setup that has just failed was the only one
        cases h.one hk₀ hj hcaller hcaller' hstage₀ hstage'
        cases hk.symm.trans hfailed
        exact hflight false rfl
      | tries _ _ _ _ _ heq =>
        rw [heq] at hstage
        cases hstage
      | begins hge =>
        obtain ⟨loop, hl₀, -⟩ := h.callers hk₀ hcaller
        exact absurd (List.getElem?_eq_some_iff.mp hl₀).1 (Nat.not_lt.mpr hge)
    · cases hbegins with
      | recovery hevent hcaller' hl₀ _ hours hepoch =>
        cases hcaller.symm.trans hcaller'
        subst hevent
        cases hsteps with
        | loopTries hj =>
          rcases List.getElem?_set_cases hl with ⟨-, rfl⟩ | ⟨hne, -⟩
          · cases hstage
          · exact absurd rfl hne
        | loopEnds hj _ _ hfence =>
          cases hl₀.symm.trans hj
          exact hfence ⟨hours, hepoch⟩
      | subscribe _ hcaller' | recreation _ hcaller' => cases hcaller.symm.trans hcaller'
  one := by
    intro j k setup setup' l hj hk hcaller hcaller' hstage hstage'
    rcases (hsteps.setups hj).in_flight hstage with ⟨setup₀, hj₀, heq, -, hstage₀⟩ | ⟨rfl, hbegins⟩
    · rcases (hsteps.setups hk).in_flight hstage' with
        ⟨setup₁, hk₀, heq', -, hstage₁⟩ | ⟨-, hbegins⟩
      · exact h.one hj₀ hk₀ (heq ▸ hcaller) (heq' ▸ hcaller') hstage₀ hstage₁
      · exact (h.begins_alone hbegins hcaller' hj₀ (heq ▸ hcaller) hstage₀).elim
    · rcases (hsteps.setups hk).in_flight hstage' with
        ⟨setup₁, hk₀, heq', -, hstage₁⟩ | ⟨rfl, -⟩
      · exact (h.begins_alone hbegins hcaller hk₀ (heq' ▸ hcaller') hstage₁).elim
      · rfl

theorem awaited {ok : State → Event → Prop} (hr : Reach step ok start s) : Awaited s :=
  hr.invariant_of registered awaited_start fun hreg _ h _ hs => h.step hreg (step_cases hs)

end ConsumerManager
end RabbitMQ

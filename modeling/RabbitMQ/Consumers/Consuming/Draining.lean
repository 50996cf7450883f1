import RabbitMQ.Consumers.Consuming.Counting

/-! A drop drains its consumer before it closes anything.

A drop that waits has its waiter among the ones of its consumer, which are resolved together when the
last delivery inside the pipeline returns. A drop that has stopped waiting found nothing inside, or
has waited for the timer that `drainTimeout` arms. -/

namespace RabbitMQ

namespace ConsumerManager

open State

variable {s t : State} {event : Event} {k d : Nat}

/-- Where a drop begins, by the deliveries of its consumer. -/
def State.drainStage (s : State) (consumer : Nat) : DropStage :=
  if s.consumers[consumer]?.any (·.inFlight > 0) then .draining else .drained

/-- No drop moves, and one may begin. -/
def Appends (s t : State) : Prop :=
  t.drops = s.drops ∨ ∃ drop, t.drops = s.drops ++ [drop] ∧ drop.stage = t.drainStage drop.consumer

/-- The drop that an event moves. -/
def Event.drop? : Event → Option Nat
  | .drainTimesOut d | .removeConsumer d _ | .terminated d | .dropped d => some d
  | _ => none

theorem settleSetup_appends (setup : Setup) (ok : Bool) :
    Appends s (s.settleSetup k setup ok) := by
  unfold settleSetup
  dsimp only
  split
  · split
    · exact .inl rfl
    · exact .inr ⟨_, rfl, rfl⟩
  · split
    · exact .inl rfl
    · split
      · exact .inl rfl
      · unfold attemptFails
        split
        · exact .inl rfl
        · split
          · exact .inr ⟨_, rfl, rfl⟩
          · exact .inl rfl
  · exact .inl rfl

theorem Appends.of_drops {s₀ : State} (h : Appends s t) (hdrops : s.drops = s₀.drops) :
    Appends s₀ t := by
  rw [Appends, ← hdrops]
  exact h

theorem Steps.appends (h : Steps s event t) (hdrop : event.drop? = none)
    (hcounts : event.counts = false) : Appends s t := by
  cases h with
  | @unsubscribe _ consumer c =>
    rcases unsubscribe_cases s consumer c with ⟨_, _, _, _, heq⟩ | heq
    · rw [heq]
      exact .inl rfl
    · rw [heq]
      exact .inr ⟨_, rfl, rfl⟩
  | unsubscribeCancelled =>
    refine Appends.of_drops (.inr ⟨_, rfl, rfl⟩) ?_
    simp [setUnsubscribe]
  | setupContinues =>
    unfold State.setupContinues
    split
    · exact .inl (by simp [setSetup])
    · split
      · exact settleSetup_appends _ _
      · split <;> exact .inl rfl
  | setupCompletes =>
    unfold State.setupCompletes
    split
    · exact .inl rfl
    · exact (settleSetup_appends _ _).of_drops (by simp)
  | setupCancelled => exact (settleSetup_appends _ _).of_drops (by simp)
  | setupReleased | setupFails => exact settleSetup_appends _ _
  | handled => cases hcounts
  | drainTimesOut | removeConsumer | terminated | dropped => cases hdrop
  | _ =>
    exact .inl (by
      simp [setLoop, setSetup, modifyConsumer, closePool, State.connectionLost,
        State.channelOpened, State.consumeOk, tryAgain])

/-- A drop that has not begun. -/
theorem getElem?_of_appends (h : Appends s t) {drop : Drop}
    (hd : t.drops[d]? = some drop) : s.drops[d]? = some drop ∨
      (d = s.drops.length ∧ t.drops.length = s.drops.length + 1 ∧
        drop.stage = t.drainStage drop.consumer) := by
  rcases h with heq | ⟨drop', heq, hstage⟩
  · exact .inl (heq ▸ hd)
  · rw [heq] at hd
    rcases List.getElem?_append_cases hd with hd | ⟨rfl, rfl⟩
    · exact .inl hd
    · exact .inr ⟨rfl, by rw [heq, List.length_append, List.length_singleton], hstage⟩

/-- The moves of a drop leave the number of drops as it is, and leave the others alone. -/
theorem Steps.moves_drop (h : Steps s event t) (hdrop : event.drop? = some d) :
    t.drops.length = s.drops.length ∧
      (∀ {j drop}, j ≠ d → t.drops[j]? = some drop → s.drops[j]? = some drop) ∧
      ∀ {drop}, s.drops[d]? = some drop → drop.stage = .draining → event = .drainTimesOut d := by
  have hset : ∀ {s₀ : State} {stage : DropStage}, s₀.drops = s.drops →
      (s₀.setDrop d stage).drops.length = s.drops.length ∧
        ∀ {j drop}, j ≠ d → (s₀.setDrop d stage).drops[j]? = some drop →
          s.drops[j]? = some drop := by
    intro s₀ stage hdrops
    refine ⟨by simp [setDrop, hdrops], fun {j drop} hne hj => ?_⟩
    obtain ⟨drop₀, hj₀, rfl⟩ := List.getElem?_modify_cases hj
    rw [if_neg hne.symm]
    exact hdrops ▸ hj₀
  have hreleases : ∀ {s₀ : State} {consumer : Nat} {stage : DropStage}, s₀.drops = s.drops →
      ((s₀.releaseDedicatedChannel consumer).2.setDrop d stage).drops.length = s.drops.length ∧
        ∀ {j drop}, j ≠ d →
          ((s₀.releaseDedicatedChannel consumer).2.setDrop d stage).drops[j]? = some drop →
          s.drops[j]? = some drop :=
    fun hdrops => hset (by simp [hdrops])
  cases h with
  | drainTimesOut =>
    cases hdrop
    exact ⟨(hset rfl).1, (hset rfl).2, fun _ _ => rfl⟩
  | @removeConsumer _ drop workers hd hstage =>
    cases hdrop
    have hnot : ∀ {drop'}, s.drops[d]? = some drop' → drop'.stage ≠ .draining := by
      intro drop' hd' hstage'
      cases hd.symm.trans hd'
      cases hstage.symm.trans hstage'
    have hremoved : (s.removed drop).drops = s.drops := rfl
    cases workers with
    | true =>
      rw [removeConsumer_of_workers]
      exact ⟨(hset hremoved).1, (hset hremoved).2, fun hd' hstage' => absurd hstage' (hnot hd')⟩
    | false =>
      rw [removeConsumer_of_no_workers]
      exact ⟨(hreleases hremoved).1, (hreleases hremoved).2,
        fun hd' hstage' => absurd hstage' (hnot hd')⟩
  | terminated hd hstage =>
    cases hdrop
    refine ⟨(hreleases rfl).1, (hreleases rfl).2, fun hd' hstage' => ?_⟩
    cases hd.symm.trans hd'
    cases hstage.symm.trans hstage'
  | dropped hd hstage =>
    cases hdrop
    rw [dropped_drops]
    refine ⟨(hset rfl).1, (hset rfl).2, fun hd' hstage' => ?_⟩
    cases hd.symm.trans hd'
    cases hstage.symm.trans hstage'
  | _ => cases hdrop

/-- A drop after a step, when no delivery has moved: it may have begun, and it leaves its drain only
by its timeout. -/
inductive DropMoves (s t : State) (event : Event) (d : Nat) (drop' : Drop) : Prop
  | same (hd : s.drops[d]? = some drop')
  | begins (hd : d = s.drops.length) (hstage : drop'.stage = t.drainStage drop'.consumer)
  | moves {drop : Drop} (hd : s.drops[d]? = some drop) (hconsumer : drop'.consumer = drop.consumer)
      (hstage : drop'.stage ≠ .draining)
      (hdraining : drop.stage = .draining → event = .drainTimesOut d)

theorem Steps.drop_moves (h : Steps s event t) (hcounts : event.counts = false) {drop' : Drop}
    (hd : t.drops[d]? = some drop') : DropMoves s t event d drop' := by
  cases hevent : event.drop? with
  | none =>
    rcases getElem?_of_appends (h.appends hevent hcounts) hd with hd | ⟨hnew, -, hstage⟩
    · exact .same hd
    · exact .begins hnew hstage
  | some d' =>
    obtain ⟨hlength, hothers, hdraining⟩ := h.moves_drop hevent
    rcases eq_or_ne d d' with rfl | hne
    · cases h.drops hd with
      | same hd => exact .same hd
      | drained hd₀ hstage heq =>
        subst heq
        exact .moves hd₀ rfl nofun (hdraining hd₀)
      | removes hd₀ hstage heq =>
        subst heq
        exact .moves hd₀ rfl nofun (hdraining hd₀)
      | releases hd₀ hstage heq =>
        subst heq
        exact .moves hd₀ rfl nofun (hdraining hd₀)
      | done hd₀ hstage heq =>
        subst heq
        exact .moves hd₀ rfl nofun (hdraining hd₀)
      | begins hnew =>
        have hlt := (List.getElem?_eq_some_iff.mp hd).1
        omega
    · exact .same (hothers hne hd)

theorem Steps.drops_length_le (h : Steps s event t) (hcounts : event.counts = false) :
    t.drops.length ≤ s.drops.length + 1 := by
  cases hevent : event.drop? with
  | none =>
    rcases h.appends hevent hcounts with heq | ⟨_, heq, _⟩
    · rw [heq]
      exact Nat.le_succ _
    · exact Nat.le_of_eq (by rw [heq, List.length_append, List.length_singleton])
  | some d =>
    rw [(h.moves_drop hevent).1]
    exact Nat.le_succ _

/-- What the last delivery of a consumer does to the drops. -/
theorem handled_drops {consumer : Nat} {c : Consumer} {drop' : Drop}
    (hd : (s.handled consumer c).drops[d]? = some drop') : ∃ drop, s.drops[d]? = some drop ∧
      drop'.consumer = drop.consumer ∧
      (drop' = drop ∧ (drop.stage = .draining → c.inFlight = 1 → drop.consumer ≠ consumer) ∨
        c.inFlight = 1 ∧ drop.consumer = consumer ∧ drop'.stage = .drained) := by
  unfold State.handled at hd
  dsimp only at hd
  split at hd
  · next hone =>
    rw [List.getElem?_map, Option.map_eq_some_iff] at hd
    obtain ⟨drop, hdrop, rfl⟩ := hd
    refine ⟨drop, hdrop, ?_⟩
    split
    · next hours => exact ⟨rfl, .inr ⟨hone, hours.1, rfl⟩⟩
    · next hours => exact ⟨rfl, .inl ⟨rfl, fun hstage _ heq => hours ⟨heq, hstage⟩⟩⟩
  · next hone => exact ⟨drop', hd, rfl, .inl ⟨rfl, fun _ h => absurd h hone⟩⟩

end ConsumerManager

namespace Consuming

open Transition

variable {α : Type} {s t : State α} {d X : Nat} {drainTimeout : Nat}

/-- How every drop stands to the deliveries of its consumer. -/
structure Drained (drainTimeout : Nat) (s : State α) : Prop where
  drains : s.drains.length = s.manager.drops.length
  waiting : ∀ {X d}, d ∈ s.waiters X → ∃ drop, s.manager.drops[d]? = some drop ∧
    drop.consumer = X ∧ 0 < s.inside X ∧ d ∉ s.resolved
  resolved : ∀ d ∈ s.resolved, d < s.manager.drops.length
  draining : ∀ {d : Nat} {drop : ConsumerManager.Drop}, s.manager.drops[d]? = some drop → drop.stage = .draining →
    d ∈ s.waiters drop.consumer
  entered : ∀ {d : Nat} {drop : ConsumerManager.Drop} {drain : Drain},
    s.manager.drops[d]? = some drop → s.drains[d]? = some drain →
    drain.entered ≤ s.entered drop.consumer
  past : ∀ {d : Nat} {drop : ConsumerManager.Drop} {drain : Drain},
    s.manager.drops[d]? = some drop → s.drains[d]? = some drain →
    drop.stage ≠ .draining → s.entered drop.consumer = drain.entered →
    s.inside drop.consumer = 0 ∨ drain.since + Timer.delay drainTimeout ≤ s.now

theorem drained_start : Drained drainTimeout (start : State α) where
  drains := rfl
  waiting := by
    intro X d hd
    cases hd
  resolved := by
    intro d hd
    cases hd
  draining := by
    intro d drop hd
    cases hd
  entered := by
    intro d drop drain hd
    cases hd
  past := by
    intro d drop drain hd
    cases hd

variable [DecidableEq α] [ToString α]

/-! ## Steps of the manager -/

theorem Consistent.inFlight_eq_inside (h : Consistent s) (X : Nat) : s.inFlight X = s.inside X := by
  rw [State.inFlight]
  cases hc : s.manager.consumers[X]? with
  | none =>
    refine (OrderedMap.count_eq_zero_iff.mpr fun tag d hd => ?_).symm
    obtain ⟨setup, _, howner, hlt⟩ := h.delivery hd
    refine decide_eq_false fun ⟨heq, _⟩ => ?_
    rw [howner, Option.some_inj] at heq
    rw [List.getElem?_eq_none_iff] at hc
    omega
  | some c => exact h.inFlight hc

/-- A drop waits when deliveries of its consumer are inside the pipeline. -/
theorem Consistent.drainStage (h : Consistent s) (X : Nat) :
    s.manager.drainStage X = .draining ↔ 0 < s.inside X := by
  rw [← h.inFlight_eq_inside, State.inFlight, ConsumerManager.State.drainStage]
  cases s.manager.consumers[X]? with
  | none => simp
  | some c => simp [Nat.pos_iff_ne_zero]

omit [DecidableEq α] [ToString α] in
theorem waiters_set {m : OrderedMap Nat (List Nat)} {Y : Nat} {ds : List Nat}
    (h : t.drainWaiters = m.set Y ds) (X : Nat) :
    t.waiters X = if X = Y then ds else (m.get? X).getD [] := by
  rw [State.waiters, h, OrderedMap.get?_set]
  split <;> rfl

omit [DecidableEq α] [ToString α] in
/-- Who waits after a step of the manager. -/
theorem Drains.mem_waiters {manager : ConsumerManager.State} (h : Drains s t manager) :
    (d ∈ s.waiters X → d ∈ t.waiters X) ∧
      (d ∈ t.waiters X → d ∈ s.waiters X ∨ ∃ drop,
        manager.drops[s.manager.drops.length]? = some drop ∧ d = s.manager.drops.length ∧
        drop.consumer = X ∧ drop.stage = .draining) := by
  cases h with
  | kept _ _ hwaiters =>
    rw [State.waiters, State.waiters, hwaiters]
    exact ⟨id, .inl⟩
  | @begins drop hdrop _ hwaiters =>
    split at hwaiters
    · next hstage =>
      rw [waiters_set hwaiters]
      split
      · next hX =>
        subst hX
        refine ⟨List.mem_append_left _, fun hd => ?_⟩
        rcases List.mem_append.mp hd with hd | hd
        · exact .inl hd
        · exact .inr ⟨drop, hdrop, List.mem_singleton.mp hd, rfl, hstage⟩
      · exact ⟨id, .inl⟩
    · rw [State.waiters, State.waiters, hwaiters]
      exact ⟨id, .inl⟩

theorem Drained.managed (h : Drained drainTimeout s) (hs : Consistent s)
    (options : Nat → Options) {event : ConsumerManager.Event} {manager : ConsumerManager.State}
    (ht : Consistent (s.managed options event manager)) (hdue : s.due drainTimeout event)
    (hsteps : ConsumerManager.Steps s.manager event manager) :
    Drained drainTimeout (s.managed options event manager) := by
  have hcounts : event.counts = false := by
    cases event with
    | delivered | handled => cases hdue
    | _ => rfl
  obtain ⟨hmanager, -, hnow, hresolved, hdeliveries, hdrains⟩ := managed_frame s options event manager
  have hsame : ∀ X, (s.managed options event manager).inside X = s.inside X ∧
      (s.managed options event manager).entered X = s.entered X :=
    fun X => inside_congr hdeliveries (hs.owner_kept (hmanager ▸ hsteps))
  have hstage := ht.drainStage
  generalize s.managed options event manager = t at *
  subst hmanager
  have hlength := hsteps.drops_length
  have hdrain : ∀ {d : Nat} {drain : Drain}, t.drains[d]? = some drain →
      s.drains[d]? = some drain ∨ (d = s.manager.drops.length ∧ ∀ {drop},
        t.manager.drops[d]? = some drop → drain = ⟨s.now, t.entered drop.consumer⟩) := by
    intro d drain hd
    cases hdrains with
    | kept _ hdrains => exact .inl (hdrains ▸ hd)
    | begins hdrop hdrains =>
      rw [hdrains] at hd
      rcases List.getElem?_append_cases hd with hd | ⟨rfl, rfl⟩
      · exact .inl hd
      · refine .inr ⟨h.drains, fun hdrop' => ?_⟩
        rw [h.drains, hdrop] at hdrop'
        rw [Option.some_inj.mp hdrop']
  refine ⟨?_, ?_, ?_, ?_, ?_, ?_⟩
  · cases hdrains with
    | kept hnone hdrains =>
      rw [hdrains, h.drains]
      exact Nat.le_antisymm hlength (List.getElem?_eq_none_iff.mp hnone)
    | begins hdrop hdrains =>
      rw [hdrains, List.length_append, h.drains]
      exact Nat.le_antisymm (List.getElem?_eq_some_iff.mp hdrop).1 (hsteps.drops_length_le hcounts)
  · intro X d hd
    rw [(hsame X).1, hresolved]
    rcases hdrains.mem_waiters.2 hd with hd | ⟨drop, hdrop, rfl, rfl, hdraining⟩
    · obtain ⟨drop, hdrop, rfl, hinside, hnot⟩ := h.waiting hd
      obtain ⟨drop', hdrop', hconsumer, -⟩ := hsteps.drop_kept hdrop
      exact ⟨drop', hdrop', hconsumer, hinside, hnot⟩
    · refine ⟨drop, hdrop, rfl, ?_, fun hd => Nat.lt_irrefl _ (h.resolved _ hd)⟩
      cases hsteps.drop_moves hcounts hdrop with
      | same hd => exact absurd (List.getElem?_eq_some_iff.mp hd).1 (Nat.lt_irrefl _)
      | begins _ heq =>
        rw [← (hsame _).1]
        exact (hstage _).mp (heq ▸ hdraining)
      | moves hd => exact absurd (List.getElem?_eq_some_iff.mp hd).1 (Nat.lt_irrefl _)
  · intro d hd
    exact Nat.lt_of_lt_of_le (h.resolved d (hresolved ▸ hd)) hlength
  · intro d drop hd hdraining
    cases hsteps.drop_moves hcounts hd with
    | same hd => exact hdrains.mem_waiters.1 (h.draining hd hdraining)
    | begins hnew =>
      subst hnew
      cases hdrains with
      | kept hnone =>
        rw [hnone] at hd
        cases hd
      | begins hdrop _ hwaiters =>
        cases hdrop.symm.trans hd
        rw [if_pos hdraining] at hwaiters
        rw [waiters_set hwaiters, if_pos rfl]
        exact List.mem_append_right _ (List.mem_singleton_self _)
    | moves _ _ hnot => exact absurd hdraining hnot
  · intro d drop drain hd hd'
    rcases hdrain hd' with hd' | ⟨_, heq⟩
    · obtain ⟨drop₀, hd₀⟩ : ∃ drop₀, s.manager.drops[d]? = some drop₀ :=
        ⟨_, List.getElem?_eq_getElem (h.drains ▸ (List.getElem?_eq_some_iff.mp hd').1)⟩
      obtain ⟨drop', hdrop', hconsumer, -⟩ := hsteps.drop_kept hd₀
      cases hdrop'.symm.trans hd
      rw [hconsumer, (hsame _).2]
      exact h.entered hd₀ hd'
    · exact heq hd ▸ Nat.le_refl _
  · intro d drop drain hd hd' hnot hentered
    rw [(hsame _).1, hnow]
    rw [(hsame _).2] at hentered
    cases hsteps.drop_moves hcounts hd with
    | same hd₀ =>
      rcases hdrain hd' with hd' | ⟨rfl, _⟩
      · exact h.past hd₀ hd' hnot hentered
      · exact absurd (List.getElem?_eq_some_iff.mp hd₀).1 (Nat.lt_irrefl _)
    | begins hnew heq =>
      refine .inl (Nat.eq_zero_of_not_pos fun hpos => hnot ?_)
      rw [heq]
      rw [← (hsame _).1] at hpos
      exact (hstage _).mpr hpos
    | @moves drop₀ hd₀ hconsumer _ hdraining =>
      rcases hdrain hd' with hd' | ⟨rfl, _⟩
      · rw [hconsumer] at hentered ⊢
        by_cases hstage₀ : drop₀.stage = .draining
        · cases hdraining hstage₀
          obtain ⟨drain', hdrain', hlate⟩ := (Option.any_eq_true _ _).mp hdue
          cases hdrain'.symm.trans hd'
          exact .inr (of_decide_eq_true hlate)
        · exact h.past hd₀ hd' hstage₀ hentered
      · exact absurd (List.getElem?_eq_some_iff.mp hd₀).1 (Nat.lt_irrefl _)

/-! ## Deliveries -/

omit [DecidableEq α] [ToString α] in
/-- The drops are as they were, and the deliveries of one consumer become more. -/
theorem Drained.deliver (h : Drained drainTimeout s) {consumer : Nat}
    (hdrops : t.manager.drops = s.manager.drops) (hdrains : t.drains = s.drains)
    (hwaiters : t.drainWaiters = s.drainWaiters) (hresolved : t.resolved = s.resolved)
    (hnow : t.now = s.now) (hcounts : ∀ X,
      t.inside X = s.inside X + (decide (X = consumer)).toNat ∧
      t.entered X = s.entered X + (decide (X = consumer)).toNat) : Drained drainTimeout t := by
  have hsame : ∀ X, t.waiters X = s.waiters X := fun X => by
    rw [State.waiters, State.waiters, hwaiters]
  refine ⟨?_, ?_, ?_, ?_, ?_, ?_⟩
  · rw [hdrains, hdrops]
    exact h.drains
  · intro X d hd
    obtain ⟨drop, hdrop, hconsumer, hinside, hnot⟩ := h.waiting (hsame X ▸ hd)
    rw [hdrops, hresolved, (hcounts X).1]
    exact ⟨drop, hdrop, hconsumer, Nat.add_pos_left hinside _, hnot⟩
  · rw [hresolved, hdrops]
    exact h.resolved
  · intro d drop hd hstage
    rw [hsame]
    exact h.draining (hdrops ▸ hd) hstage
  · intro d drop drain hd hd'
    rw [(hcounts _).2]
    exact Nat.le_trans (h.entered (hdrops ▸ hd) (hdrains ▸ hd')) (Nat.le_add_right _ _)
  · intro d drop drain hd hd' hstage hentered
    have hle := h.entered (hdrops ▸ hd) (hdrains ▸ hd')
    rw [(hcounts _).2] at hentered
    have hothers : (decide (drop.consumer = consumer)).toNat = 0 := by omega
    rw [hothers, Nat.add_zero] at hentered
    rw [(hcounts _).1, hothers, Nat.add_zero, hnow]
    exact h.past (hdrops ▸ hd) (hdrains ▸ hd') hstage hentered

/-! ## Steps of the pipeline -/

omit [DecidableEq α] [ToString α] in
theorem Drained.stays (h : Drained drainTimeout s) (hmanager : t.manager = s.manager)
    (hdrains : t.drains = s.drains) (hwaiters : t.drainWaiters = s.drainWaiters)
    (hresolved : t.resolved = s.resolved) (hnow : s.now ≤ t.now)
    (hinside : ∀ X, t.inside X = s.inside X) (hentered : ∀ X, t.entered X = s.entered X) :
    Drained drainTimeout t := by
  have hsame : ∀ X, t.waiters X = s.waiters X := fun X => by
    rw [State.waiters, State.waiters, hwaiters]
  refine ⟨?_, ?_, ?_, ?_, ?_, ?_⟩
  · rw [hdrains, hmanager]
    exact h.drains
  · intro X d hd
    rw [hmanager, hresolved, hinside]
    exact h.waiting (hsame X ▸ hd)
  · rw [hresolved, hmanager]
    exact h.resolved
  · intro d drop hd hstage
    rw [hsame]
    exact h.draining (hmanager ▸ hd) hstage
  · intro d drop drain hd hd'
    rw [hentered]
    exact h.entered (hmanager ▸ hd) (hdrains ▸ hd')
  · intro d drop drain hd hd' hstage heq
    rw [hentered] at heq
    rw [hinside]
    exact (h.past (hmanager ▸ hd) (hdrains ▸ hd') hstage heq).imp_right
      fun hlate => Nat.le_trans hlate hnow

/-- A delivery of the consumer `X` returns. The last one resolves every drain that waits. -/
theorem Drained.returns (h : Drained drainTimeout s) (hs : Consistent s)
    {c : ConsumerManager.Consumer} (hc : s.manager.consumers[X]? = some c)
    (hmanager : t.manager = s.manager.handled X c) (hdrains : t.drains = s.drains)
    (hnow : t.now = s.now)
    (hinside : ∀ Y, s.inside Y = t.inside Y + (decide (Y = X)).toNat)
    (hentered : ∀ Y, t.entered Y = s.entered Y)
    (hlast : (c.inFlight = 1 ∧ t.drainWaiters = s.drainWaiters.erase X ∧
        t.resolved = s.resolved ++ s.waiters X) ∨
      (c.inFlight ≠ 1 ∧ t.drainWaiters = s.drainWaiters ∧ t.resolved = s.resolved)) :
    Drained drainTimeout t := by
  have hflight := hs.inFlight hc
  have hX := hinside X
  rw [decide_eq_true rfl, Bool.toNat_true] at hX
  have hsteps : ConsumerManager.Steps s.manager (.handled X) t.manager :=
    hmanager ▸ .handled hc (by omega)
  have hdrops : t.manager.drops.length = s.manager.drops.length := by
    rw [hmanager, ConsumerManager.State.handled]
    split
    · exact List.length_map ..
    · rfl
  have hothers : ∀ {Y}, Y ≠ X → s.inside Y = t.inside Y := fun {Y} hne => by
    rw [hinside Y, decide_eq_false hne, Bool.toNat_false, Nat.add_zero]
  have hwaits : ∀ {Y d}, d ∈ t.waiters Y ↔ d ∈ s.waiters Y ∧ (Y = X → c.inFlight ≠ 1) := by
    intro Y d
    rcases hlast with ⟨hone, hwaiters, -⟩ | ⟨hone, hwaiters, -⟩
    · rw [State.waiters, State.waiters, hwaiters, OrderedMap.get?_erase]
      split
      · next hY => exact ⟨by simp, fun hd => absurd hone (hd.2 hY)⟩
      · next hY => exact ⟨fun hd => ⟨hd, fun heq => absurd heq hY⟩, And.left⟩
    · rw [State.waiters, State.waiters, hwaiters]
      exact ⟨fun hd => ⟨hd, fun _ => hone⟩, And.left⟩
  refine ⟨?_, ?_, ?_, ?_, ?_, ?_⟩
  · rw [hdrains, hdrops]
    exact h.drains
  · intro Y d hd
    obtain ⟨hd, hone⟩ := hwaits.mp hd
    obtain ⟨drop, hdrop, rfl, hpos, hnot⟩ := h.waiting hd
    obtain ⟨drop', hdrop', hconsumer, -⟩ := hsteps.drop_kept hdrop
    refine ⟨drop', hdrop', hconsumer, ?_, fun hd' => ?_⟩
    · rcases eq_or_ne drop.consumer X with heq | hne
      · have hone := hone heq
        rw [heq]
        omega
      · exact hothers hne ▸ hpos
    · rcases hlast with ⟨hone', _, hresolved⟩ | ⟨_, _, hresolved⟩
      · rw [hresolved] at hd'
        rcases List.mem_append.mp hd' with hd' | hd'
        · exact hnot hd'
        · obtain ⟨drop₀, hdrop₀, hX, -⟩ := h.waiting hd'
          cases hdrop₀.symm.trans hdrop
          exact hone hX hone'
      · exact hnot (hresolved ▸ hd')
  · intro d hd
    rw [hdrops]
    rcases hlast with ⟨_, _, hresolved⟩ | ⟨_, _, hresolved⟩
    · rw [hresolved] at hd
      rcases List.mem_append.mp hd with hd | hd
      · exact h.resolved d hd
      · obtain ⟨drop, hdrop, -⟩ := h.waiting hd
        exact (List.getElem?_eq_some_iff.mp hdrop).1
    · exact h.resolved d (hresolved ▸ hd)
  · intro d drop hd hstage
    obtain ⟨drop₀, hd₀, hconsumer, hcase⟩ := ConsumerManager.handled_drops (hmanager ▸ hd)
    rcases hcase with ⟨rfl, hours⟩ | ⟨_, _, hdrained⟩
    · exact hwaits.mpr ⟨h.draining hd₀ hstage, fun heq hone => hours hstage hone heq⟩
    · rw [hdrained] at hstage
      cases hstage
  · intro d drop drain hd hd'
    obtain ⟨drop₀, hd₀, hconsumer, -⟩ := ConsumerManager.handled_drops (hmanager ▸ hd)
    rw [hconsumer, hentered]
    exact h.entered hd₀ (hdrains ▸ hd')
  · intro d drop drain hd hd' hstage heq
    obtain ⟨drop₀, hd₀, hconsumer, hcase⟩ := ConsumerManager.handled_drops (hmanager ▸ hd)
    rw [hentered] at heq
    rw [hnow]
    rcases hcase with ⟨rfl, _⟩ | ⟨hone, rfl, _⟩
    · refine (h.past hd₀ (hdrains ▸ hd') hstage heq).imp_left fun hzero => ?_
      have := hinside drop.consumer
      omega
    · rw [hconsumer]
      exact .inl (by omega)

/-! ## Runs -/

theorem Drained.step (h : Drained drainTimeout s) (hs : Consistent s) (ht : Consistent t)
    {options : Nat → Options} {event : Event α}
    (hsteps : Steps options drainTimeout s event t) : Drained drainTimeout t := by
  cases hsteps with
  | manager hdue hstep => exact h.managed hs options ht hdue (ConsumerManager.step_cases hstep)
  | deliver hk hmanager hpipeline =>
    obtain ⟨consume, _, hmodify, hcounts⟩ := hs.delivers hk hmanager hpipeline
    refine h.deliver ?_ rfl rfl rfl rfl hcounts
    rw [hmodify]
    rfl
  | @pipeline env event pipeline hown hquiet hstep =>
    obtain ⟨hpiped, hentered⟩ := hs.pipes hown hstep
    obtain ⟨-, -, hnow, hdrains, -⟩ := piped_frame s event pipeline
    cases hpiped with
    | stays hmanager hwaiters hresolved hinside =>
      exact h.stays hmanager hdrains hwaiters hresolved (Nat.le_of_eq hnow.symm) hinside hentered
    | returns hc hmanager hinside hlast =>
      exact h.returns hs hc hmanager hdrains hnow hinside hentered hlast
  | tick =>
    exact h.stays rfl rfl rfl rfl (Nat.le_add_right _ _) (fun _ => rfl) fun _ => rfl

theorem drained {options : Nat → Options} {ok : State α → Event α → Prop}
    (hr : Reach (step options drainTimeout) ok start s) : Drained drainTimeout s :=
  hr.invariant_of consistent drained_start fun hs ht h _ hstep => h.step hs ht (step_cases hstep)

/-- The drains that a step resolves. -/
theorem Drained.resolves (h : Drained drainTimeout s) (hs : Consistent s)
    {options : Nat → Options} {event : Event α} (hsteps : Steps options drainTimeout s event t)
    (hd : d ∈ s.waiters X) : d ∈ t.resolved ↔ t.inside X = 0 := by
  obtain ⟨drop, hdrop, hX, hpos, hnot⟩ := h.waiting hd
  have hkeeps : t.resolved = s.resolved → s.inside X ≤ t.inside X →
      (d ∈ t.resolved ↔ t.inside X = 0) := by
    intro hresolved hle
    rw [hresolved]
    exact ⟨fun hmem => absurd hmem hnot, fun hzero => by omega⟩
  cases hsteps with
  | @manager event manager hdue hstep =>
    obtain ⟨hmanager, -, -, hresolved, hdeliveries, -⟩ := managed_frame s options event manager
    refine hkeeps hresolved (Nat.le_of_eq (inside_congr hdeliveries ?_).1.symm)
    exact hs.owner_kept (hmanager ▸ ConsumerManager.step_cases hstep)
  | deliver hk hmanager hpipeline =>
    obtain ⟨consume, _, _, hcounts⟩ := hs.delivers hk hmanager hpipeline
    refine hkeeps rfl ?_
    rw [(hcounts X).1]
    exact Nat.le_add_right _ _
  | pipeline hown hquiet hstep =>
    cases (hs.pipes hown hstep).1 with
    | stays _ _ hresolved hinside => exact hkeeps hresolved (Nat.le_of_eq (hinside X).symm)
    | @returns Y c hc _ hinside hlast =>
      have hflight := hs.inFlight hc
      have hY := hinside Y
      rw [decide_eq_true rfl, Bool.toNat_true] at hY
      rcases eq_or_ne X Y with rfl | hne
      · rcases hlast with ⟨hone, _, hresolved⟩ | ⟨hone, _, hresolved⟩
        · rw [hresolved]
          exact ⟨fun _ => by omega, fun _ => List.mem_append_right _ hd⟩
        · rw [hresolved]
          exact ⟨fun hmem => absurd hmem hnot, fun hzero => by omega⟩
      · have hX' := hinside X
        rw [decide_eq_false hne, Bool.toNat_false, Nat.add_zero] at hX'
        rcases hlast with ⟨_, _, hresolved⟩ | ⟨_, _, hresolved⟩
        · rw [hresolved, List.mem_append]
          refine ⟨fun hmem => ?_, fun hzero => by omega⟩
          rcases hmem with hmem | hmem
          · exact absurd hmem hnot
          · obtain ⟨drop', hdrop', hY, -⟩ := h.waiting hmem
            cases hdrop'.symm.trans hdrop
            exact absurd (hX.symm.trans hY) hne
        · exact hkeeps hresolved (Nat.le_of_eq hX')
  | tick => exact hkeeps rfl (Nat.le_refl _)

/-- The drop that a step takes further than its drain: it removes the consumer and terminates its
worker pool or closes its dedicated channel, or closes the channel after the workers. -/
def Event.tearsDown : Event α → Option Nat
  | .manager (.removeConsumer d _) | .manager (.terminated d) => some d
  | _ => none

/-- A drop that is past its drain has waited. -/
theorem Drained.tearsDown (h : Drained drainTimeout s) {options : Nat → Options} {event : Event α}
    (hsteps : Steps options drainTimeout s event t) (hd : event.tearsDown = some d) :
    ∃ drop drain, s.manager.drops[d]? = some drop ∧ s.drains[d]? = some drain ∧
      (s.entered drop.consumer = drain.entered →
        s.inside drop.consumer = 0 ∨ drain.since + Timer.delay drainTimeout ≤ s.now) := by
  have hpast : ∀ {drop}, s.manager.drops[d]? = some drop → drop.stage ≠ .draining →
      ∃ drop drain, s.manager.drops[d]? = some drop ∧ s.drains[d]? = some drain ∧
        (s.entered drop.consumer = drain.entered →
          s.inside drop.consumer = 0 ∨ drain.since + Timer.delay drainTimeout ≤ s.now) := by
    intro drop hdrop hstage
    have hdrain := List.getElem?_eq_getElem
      (h.drains.symm ▸ (List.getElem?_eq_some_iff.mp hdrop).1 : d < s.drains.length)
    exact ⟨drop, _, hdrop, hdrain, h.past hdrop hdrain hstage⟩
  cases hsteps with
  | manager _ hstep =>
    cases ConsumerManager.step_cases hstep with
    | removeConsumer hdrop hstage =>
      cases hd
      exact hpast hdrop (hstage ▸ nofun)
    | terminated hdrop hstage =>
      cases hd
      exact hpast hdrop (hstage ▸ nofun)
    | _ => cases hd
  | _ => cases hd

/-- A consumer counts the deliveries that are inside the pipeline, the drains that wait for it are
resolved when the count is back at 0 and not before, and a drop closes nothing while deliveries of
its consumer are inside, unless new ones have entered or its drain has timed out: after
`drainTimeout`, if a timer waits for that long. -/
theorem removal_waits {options : Nat → Options}
    (hr : Reach (step options drainTimeout) anyStep start s) {event : Event α}
    (hs : Consuming.step options drainTimeout s event = some t) :
    (∀ X, s.inFlight X = s.inside X) ∧
    (∀ X, ∀ d ∈ s.waiters X,
      0 < s.inFlight X ∧ d ∉ s.resolved ∧ (d ∈ t.resolved ↔ t.inFlight X = 0)) ∧
    (drainTimeout ≤ Timer.maxDelay → ∀ d, event.tearsDown = some d →
      ∃ drop drain, s.manager.drops[d]? = some drop ∧ s.drains[d]? = some drain ∧
        (s.entered drop.consumer = drain.entered →
          s.inside drop.consumer = 0 ∨ drain.since + drainTimeout ≤ s.now)) := by
  have hconsistent := consistent hr
  have hdrained := drained hr
  refine ⟨hconsistent.inFlight_eq_inside, fun X d hd => ?_, fun hrange d hd => ?_⟩
  · obtain ⟨drop, _, _, hpos, hnot⟩ := hdrained.waiting hd
    rw [hconsistent.inFlight_eq_inside, (consistent (hr.tail trivial hs)).inFlight_eq_inside]
    exact ⟨hpos, hnot, hdrained.resolves hconsistent (step_cases hs) hd⟩
  · obtain ⟨drop, drain, hdrop, hdrain, hwaits⟩ := hdrained.tearsDown (step_cases hs) hd
    refine ⟨drop, drain, hdrop, hdrain, fun hentered => (hwaits hentered).imp_right fun hpast => ?_⟩
    exact (Nat.add_le_add_left (Timer.le_delay hrange) _).trans hpast

/-- A consumer is subscribed, and unsubscribed with a delivery at its handler. -/
private def unsubscribing : List (Event String) :=
  [.poolInstalled, .recreateAll, .recreated, .subscribe false, .channelOpened 0,
    .setupContinues 0, .prefetched 0, .consumeOk 0 7, .setupCompletes 0].map .manager ++
  [.deliver quietEnv 0 { tag := 1 }, .pipeline quietEnv (.decoded 1), .manager (.unsubscribe 7),
    .manager (.unsubscribeCancelled 0), .tick 5]

/-- The handler returns before the timeout: the drain is resolved, and the consumer is removed. -/
theorem removal_waits_run : ∃ s t u : State String,
    (0 ∈ s.waiters 0 ∧ 0 < s.inFlight 0 ∧ 0 ∉ s.resolved ∧ (0 ∈ t.resolved ↔ t.inFlight 0 = 0)) ∧
    t.inFlight 0 = 0 ∧
    Consuming.step (fun _ => ⟨.once, none⟩) 30000 t (.manager (.removeConsumer 0 false)) = some u ∧
    ∃ drop drain, t.manager.drops[0]? = some drop ∧ t.drains[0]? = some drain ∧
      (t.entered drop.consumer = drain.entered →
        t.inside drop.consumer = 0 ∨ drain.since + 30000 ≤ t.now) := by
  have hrun : (run (Consuming.step (fun _ => ⟨.once, none⟩) 30000) anyStep start
      unsubscribing).any fun s => decide (0 ∈ s.waiters 0) &&
        (Consuming.step (fun _ => ⟨.once, none⟩) 30000 s
          (.pipeline quietEnv (.callbackResolved 1))).any fun t => decide (t.inFlight 0 = 0) &&
            (Consuming.step (fun _ => ⟨.once, none⟩) 30000 t
              (.manager (.removeConsumer 0 false))).isSome := by
    decide +kernel
  obtain ⟨s, hs, h⟩ := (Option.any_eq_true _ _).mp hrun
  obtain ⟨hwaits, h⟩ := Bool.and_eq_true_iff.mp h
  obtain ⟨t, ht, h⟩ := (Option.any_eq_true _ _).mp h
  obtain ⟨hzero, h⟩ := Bool.and_eq_true_iff.mp h
  obtain ⟨u, hu⟩ := Option.isSome_iff_exists.mp h
  have hr := reach_of_run hs
  have hfirst := (removal_waits hr ht).2.1 0 0 (of_decide_eq_true hwaits)
  have hlast := (removal_waits (hr.tail trivial ht) hu).2.2 (by decide) 0 rfl
  exact ⟨s, t, u, ⟨of_decide_eq_true hwaits, hfirst⟩, of_decide_eq_true hzero, hu, hlast⟩

/-- With a `drainTimeout` of 2^31 milliseconds the timer waits for one: the consumer is removed a
few milliseconds later, under its running handler. -/
theorem removal_cut_short : ∃ s t : State String,
    Reach (step (fun _ => ⟨.once, none⟩) (2 ^ 31)) anyStep start s ∧
    Consuming.step (fun _ => ⟨.once, none⟩) (2 ^ 31) s (.manager (.removeConsumer 0 false)) = some t ∧
    ∃ drop drain, s.manager.drops[0]? = some drop ∧ s.drains[0]? = some drain ∧
      s.entered drop.consumer = drain.entered ∧ s.inside drop.consumer = 1 ∧
      s.now < drain.since + 2 ^ 31 := by
  have hrun : (run (Consuming.step (fun _ => ⟨.once, none⟩) (2 ^ 31)) anyStep start
      (unsubscribing ++ [.manager (.drainTimesOut 0)])).any fun s =>
        (Consuming.step (fun _ => ⟨.once, none⟩) (2 ^ 31) s
          (.manager (.removeConsumer 0 false))).isSome &&
        (s.manager.drops[0]?).any fun drop => (s.drains[0]?).any fun drain =>
          decide (s.entered drop.consumer = drain.entered ∧ s.inside drop.consumer = 1 ∧
            s.now < drain.since + 2 ^ 31) := by
    decide +kernel
  obtain ⟨s, hs, h⟩ := (Option.any_eq_true _ _).mp hrun
  obtain ⟨hstep, h⟩ := Bool.and_eq_true_iff.mp h
  obtain ⟨t, ht⟩ := Option.isSome_iff_exists.mp hstep
  obtain ⟨drop, hdrop, h⟩ := (Option.any_eq_true _ _).mp h
  obtain ⟨drain, hdrain, h⟩ := (Option.any_eq_true _ _).mp h
  exact ⟨s, t, reach_of_run hs, ht, drop, drain, hdrop, hdrain, of_decide_eq_true h⟩

end Consuming

end RabbitMQ

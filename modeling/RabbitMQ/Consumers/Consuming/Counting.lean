import RabbitMQ.Consumers.Consuming
import RabbitMQ.Consumers.ConsumerManager.Tags

/-! The deliveries of a consumer that are inside the pipeline are the ones that its `inFlight` counts.

A run of the whole is a run of the manager and a run of the pipeline. Every consume belongs to a
setup of its consumer, so a delivery is counted where its callback will subtract it. -/

namespace RabbitMQ
namespace Consuming

open Transition

variable {α : Type} {s t : State α} {consumer tag : Nat}

/-! ## What the parts of a step leave as it is -/

theorem dispose_frame (s : State α) (consumer : Nat) :
    let t := s.dispose consumer
    t.manager = s.manager ∧ t.consumeSetups = s.consumeSetups ∧
    t.sequentialProcessor = s.sequentialProcessor ∧ t.now = s.now ∧ t.drains = s.drains ∧
    t.drainWaiters = s.drainWaiters ∧ t.resolved = s.resolved ∧
    t.pipeline.deliveries = s.pipeline.deliveries ∧
    t.pipeline.subscriptions = s.pipeline.subscriptions := by
  unfold State.dispose
  split
  · simp
  · split <;> simp

theorem disposes_frame (s : State α) (consumers : List Nat) :
    let t := consumers.foldl State.dispose s
    t.manager = s.manager ∧ t.consumeSetups = s.consumeSetups ∧
    t.sequentialProcessor = s.sequentialProcessor ∧ t.now = s.now ∧ t.drains = s.drains ∧
    t.drainWaiters = s.drainWaiters ∧ t.resolved = s.resolved ∧
    t.pipeline.deliveries = s.pipeline.deliveries ∧
    t.pipeline.subscriptions = s.pipeline.subscriptions := by
  induction consumers generalizing s with
  | nil => simp
  | cons consumer consumers ih =>
    have hfirst := dispose_frame s consumer
    have hrest := ih (s.dispose consumer)
    simp only [List.foldl_cons]
    simp_all

theorem createProcessor_frame (s : State α) (options : Options) (k consumer channel : Nat) :
    let t := s.createProcessor options k consumer channel
    t.manager = s.manager ∧ t.consumeSetups = s.consumeSetups ∧ t.now = s.now ∧
    t.drains = s.drains ∧ t.drainWaiters = s.drainWaiters ∧ t.resolved = s.resolved ∧
    t.pipeline.deliveries = s.pipeline.deliveries := by
  have hdispose := dispose_frame s consumer
  unfold State.createProcessor
  dsimp only
  split <;> simp_all

theorem setupContinues_frame (s : State α) (options : Nat → Options) (k : Nat) :
    let t := s.setupContinues options k
    t.manager = s.manager ∧ t.consumeSetups = s.consumeSetups ∧ t.now = s.now ∧
    t.drains = s.drains ∧ t.drainWaiters = s.drainWaiters ∧ t.resolved = s.resolved ∧
    t.pipeline.deliveries = s.pipeline.deliveries := by
  unfold State.setupContinues
  split
  · split
    · exact createProcessor_frame ..
    · simp
  · simp

/-- The setups of the consumes after a step of the manager. -/
def consumed (setups : List Nat) : ConsumerManager.Event → List Nat
  | .consumeOk k _ => setups ++ [k]
  | _ => setups

/-- A step of the manager as the drains see it: it begins one drain at most. -/
inductive Drains (s t : State α) (manager : ConsumerManager.State) : Prop
  | kept (hnone : manager.drops[s.manager.drops.length]? = none) (hdrains : t.drains = s.drains)
      (hwaiters : t.drainWaiters = s.drainWaiters)
  | begins {drop} (hdrop : manager.drops[s.manager.drops.length]? = some drop)
      (hdrains : t.drains = s.drains ++ [⟨s.now, t.entered drop.consumer⟩])
      (hwaiters : t.drainWaiters =
        if drop.stage = .draining then
          s.drainWaiters.set drop.consumer (s.waiters drop.consumer ++ [s.manager.drops.length])
        else s.drainWaiters)

theorem setUp_frame (s : State α) (options : Nat → Options) (event : ConsumerManager.Event) :
    let t := s.setUp options event
    t.manager = s.manager ∧ t.consumeSetups = consumed s.consumeSetups event ∧ t.now = s.now ∧
    t.drains = s.drains ∧ t.drainWaiters = s.drainWaiters ∧ t.resolved = s.resolved ∧
    t.pipeline.deliveries = s.pipeline.deliveries := by
  cases event with
  | setupContinues k => exact setupContinues_frame s options k
  | _ => simp [State.setUp, consumed]

theorem goesOn_frame (s : State α) (manager : ConsumerManager.State) :
    let t := s.goesOn manager
    t.manager = manager ∧ t.consumeSetups = s.consumeSetups ∧ t.now = s.now ∧
    t.resolved = s.resolved ∧ t.pipeline = s.pipeline ∧
    t.sequentialProcessor = s.sequentialProcessor ∧ Drains s t manager := by
  unfold State.goesOn
  cases hdrop : manager.drops[s.manager.drops.length]? with
  | none => exact ⟨rfl, rfl, rfl, rfl, rfl, rfl, .kept hdrop rfl rfl⟩
  | some drop => exact ⟨rfl, rfl, rfl, rfl, rfl, rfl, .begins hdrop rfl rfl⟩

theorem Drains.of_frame {s₁ : State α} {manager : ConsumerManager.State}
    (h : Drains s₁ t manager) (hmanager : s₁.manager = s.manager) (hnow : s₁.now = s.now)
    (hdrains : s₁.drains = s.drains) (hwaiters : s₁.drainWaiters = s.drainWaiters) :
    Drains s t manager := by
  cases h with
  | kept hnone hdrains' hwaiters' =>
    exact .kept (hmanager ▸ hnone) (hdrains'.trans hdrains) (hwaiters'.trans hwaiters)
  | begins hdrop hdrains' hwaiters' =>
    rw [hmanager] at hdrop
    refine .begins hdrop ?_ ?_
    · rw [hdrains', hdrains, hnow]
    · rw [hwaiters', State.waiters, State.waiters, hwaiters, hmanager]

theorem managed_frame (s : State α) (options : Nat → Options) (event : ConsumerManager.Event)
    (manager : ConsumerManager.State) :
    let t := s.managed options event manager
    t.manager = manager ∧ t.consumeSetups = consumed s.consumeSetups event ∧ t.now = s.now ∧
    t.resolved = s.resolved ∧ t.pipeline.deliveries = s.pipeline.deliveries ∧
    Drains s t manager := by
  obtain ⟨hmanager, hsetups, -, hnow, hdrains, hwaiters, hresolved, hdeliveries, -⟩ :=
    disposes_frame s (disposed s.manager event)
  obtain ⟨hmanager', hsetups', hnow', hdrains', hwaiters', hresolved', hdeliveries'⟩ :=
    setUp_frame ((disposed s.manager event).foldl State.dispose s) options event
  obtain ⟨hmanager'', hsetups'', hnow'', hresolved'', hpipeline, -, hbegins⟩ :=
    goesOn_frame (((disposed s.manager event).foldl State.dispose s).setUp options event) manager
  refine ⟨hmanager'', ?_, hnow''.trans (hnow'.trans hnow),
    hresolved''.trans (hresolved'.trans hresolved), ?_, ?_⟩
  · rw [← hsetups]
    exact hsetups''.trans hsetups'
  · rw [← hdeliveries, ← hdeliveries']
    exact congrArg _ hpipeline
  · exact hbegins.of_frame (hmanager'.trans hmanager) (hnow'.trans hnow)
      (hdrains'.trans hdrains) (hwaiters'.trans hwaiters)

/-! ## Counting -/

/-- The same deliveries, of consumers that are the same. -/
theorem inside_congr (hdeliveries : t.pipeline.deliveries = s.pipeline.deliveries)
    (howner : ∀ tag d, s.pipeline.deliveries.get? tag = some d →
      t.consumerOf d.subscription = s.consumerOf d.subscription) :
    t.inside consumer = s.inside consumer ∧ t.entered consumer = s.entered consumer := by
  unfold State.inside State.entered
  rw [hdeliveries]
  constructor
  · refine OrderedMap.count_congr rfl fun tag => ?_
    cases hd : s.pipeline.deliveries.get? tag with
    | none => rfl
    | some d => rw [Option.any_some, Option.any_some, howner tag d hd]
  · refine OrderedMap.count_congr rfl fun tag => ?_
    cases hd : s.pipeline.deliveries.get? tag with
    | none => rfl
    | some d => rw [Option.any_some, Option.any_some, howner tag d hd]

/-- The setup has its processor, or never will. -/
def started : ConsumerManager.SetupStage → Bool
  | .notConnected | .opening _ | .opened _ => false
  | _ => true

/-- Setups stay with their consumers. -/
theorem consumerOf_kept {event : ConsumerManager.Event}
    (hsteps : ConsumerManager.Steps s.manager event t.manager) {id : Nat}
    (h : s.consumerOf id = some consumer) : t.consumerOf id = some consumer := by
  obtain ⟨setup, hk, rfl⟩ := Option.map_eq_some_iff.mp h
  rw [State.consumerOf]
  rcases hsteps.setup_kept hk with hk' | ⟨stage, _, hk'⟩
  · rw [hk']
    rfl
  · rw [hk']
    rfl

variable [DecidableEq α] [ToString α]

/-- The whole is a run of its parts, and every consume and every subscription has its setup. -/
structure Consistent (s : State α) : Prop where
  manager : Reach ConsumerManager.step anyStep ConsumerManager.start s.manager
  pipeline : Reach ConsumePipeline.step anyStep ConsumePipeline.start s.pipeline
  consumeSetups : s.consumeSetups.length = s.manager.consumes.length
  consumes : ∀ {i k : Nat}, s.consumeSetups[i]? = some k → ∃ setup consume,
    s.manager.setups[k]? = some setup ∧ s.manager.consumes[i]? = some consume ∧
      setup.consumer = consume.consumer
  subscriptions : ∀ {k sub}, s.pipeline.subscriptions.get? k = some sub → ∃ setup,
    s.manager.setups[k]? = some setup ∧ started setup.stage
  inFlight : ∀ {consumer c}, s.manager.consumers[consumer]? = some c →
    c.inFlight = s.inside consumer

theorem consistent_start : Consistent (start : State α) where
  manager := .refl
  pipeline := .refl
  consumeSetups := rfl
  consumes := by
    intro i k hk
    cases hk
  subscriptions := by
    intro k sub hsub
    cases hsub
  inFlight := by
    intro consumer c hc
    cases hc

/-- A delivery belongs to a setup, hence to a consumer. -/
theorem Consistent.delivery (h : Consistent s) {d : ConsumePipeline.Delivery α}
    (hd : s.pipeline.deliveries.get? tag = some d) : ∃ setup,
      s.manager.setups[d.subscription]? = some setup ∧
      s.consumerOf d.subscription = some setup.consumer ∧
      setup.consumer < s.manager.consumers.length := by
  obtain ⟨-, sub, hlookup, -⟩ :=
    (ConsumePipeline.accounted h.pipeline).attributed.delivery tag d hd
  obtain ⟨setup, hsetup, -⟩ := h.subscriptions (ConsumePipeline.lookup_eq_some.mp hlookup).2
  refine ⟨setup, hsetup, ?_, (ConsumerManager.registered h.manager).setups hsetup⟩
  rw [State.consumerOf, hsetup]
  rfl


/-! ## The pipeline of a step of the manager -/

/-- Calls of `ack` and `nack` go through, and no listener throws. -/
def quietEnv : ConsumePipeline.Env α :=
  ⟨fun _ _ => false, fun _ => .ok (), fun _ _ => .ok ()⟩

/-- A setup subscribes, or a processor is disposed of. -/
def Arranges (_ : ConsumePipeline.State α)
    (input : ConsumePipeline.Env α × ConsumePipeline.Event α) : Prop :=
  (∃ id sub, input.2 = .subscribe id sub) ∨ ∃ id, input.2 = .processor id .dispose

/-- Disposing of a processor is a step of the pipeline. -/
theorem dispose_pipeline
    (h : Reach ConsumePipeline.step anyStep ConsumePipeline.start s.pipeline) (consumer : Nat) :
    Reach ConsumePipeline.step Arranges s.pipeline (s.dispose consumer).pipeline := by
  unfold State.dispose
  split
  · exact .refl
  · next id _ =>
    split
    · exact .refl
    · next p hp =>
      obtain ⟨sub, hsub, hsequential⟩ := (ConsumePipeline.running h).sequential id p hp
      obtain ⟨staleTimeout, hstale⟩ := Option.isSome_iff_exists.mp hsequential
      have hstep : ConsumePipeline.step s.pipeline (quietEnv, .processor id .dispose) =
          some { s.pipeline with
            processors := s.pipeline.processors.set id (SequentialProcessor.dispose p) } := by
        simp only [ConsumePipeline.step, hsub, hp, hstale]
        rfl
      exact .tail .refl (.inr ⟨id, rfl⟩) hstep

theorem disposes_pipeline
    (h : Reach ConsumePipeline.step anyStep ConsumePipeline.start s.pipeline)
    (consumers : List Nat) : Reach ConsumePipeline.step Arranges s.pipeline
      (consumers.foldl State.dispose s).pipeline := by
  induction consumers generalizing s with
  | nil => exact .refl
  | cons consumer consumers ih =>
    have hfirst := dispose_pipeline h consumer
    exact hfirst.trans (ih (h.trans hfirst.toAny))

theorem subscribe_quiet {p : ConsumePipeline.State α} {k : Nat} (hfresh : k ∉ p.subscriptions)
    {sub : ConsumePipeline.Subscription} :
    ConsumePipeline.step p (quietEnv, .subscribe k sub) = some { p with
      subscriptions := p.subscriptions.set k sub
      processors := if sub.sequential.isSome then p.processors.set k SequentialProcessor.start
        else p.processors } :=
  ConsumePipeline.subscribe_step hfresh

/-- The processor of a setup that has none yet. -/
theorem createProcessor_pipeline
    (h : Reach ConsumePipeline.step anyStep ConsumePipeline.start s.pipeline) (options : Options)
    {k : Nat} (hfresh : k ∉ s.pipeline.subscriptions) (consumer channel : Nat) :
    Reach ConsumePipeline.step Arranges s.pipeline
      (s.createProcessor options k consumer channel).pipeline ∧
    (s.createProcessor options k consumer channel).pipeline.subscriptions =
      s.pipeline.subscriptions.set k ⟨channel, s.manager.consumers[consumer]?.any (·.noAck),
        options.retryPolicy, options.sequential⟩ := by
  unfold State.createProcessor
  cases hsequential : options.sequential with
  | none =>
    exact ⟨.tail .refl (.inl ⟨_, _, rfl⟩) (subscribe_quiet hfresh), rfl⟩
  | some staleTimeout =>
    obtain ⟨-, -, -, -, -, -, -, -, hsubs⟩ := dispose_frame s consumer
    refine ⟨(dispose_pipeline h consumer).tail (.inl ⟨_, _, rfl⟩)
      (subscribe_quiet (hsubs ▸ hfresh)), ?_⟩
    change (s.dispose consumer).pipeline.subscriptions.set k _ = _
    rw [hsubs]

theorem started_of_move {s₁ t₁ : ConsumerManager.State} {setup : ConsumerManager.Setup}
    {stage : ConsumerManager.SetupStage} (h : ConsumerManager.StageMove s₁ t₁ setup stage)
    (hstarted : started setup.stage) : started stage := by
  cases h with
  | opened hstage | releasing hstage | prefetching hstage | skipsPrefetch hstage =>
    rw [hstage] at hstarted
    cases hstarted
  | _ => rfl

/-- A setup that creates its processor goes on to prefetch or to consume. -/
theorem setupContinues_started {manager : ConsumerManager.State} {k channel : Nat}
    {setup : ConsumerManager.Setup} (hk : manager.setups[k]? = some setup)
    (hactive : setup.consumer ∈ manager.activeConsumers)
    (hcancelled : manager.cancelled setup.consumer = false) :
    ∃ setup', (manager.setupContinues k setup channel).setups[k]? = some setup' ∧
      started setup'.stage := by
  unfold ConsumerManager.State.setupContinues
  rw [if_neg (not_not.mpr hactive), if_neg (by simp [hcancelled])]
  split
  · exact ⟨_, (List.getElem?_modify_of hk).trans (by rw [if_pos rfl]), rfl⟩
  · exact ⟨_, (List.getElem?_modify_of hk).trans (by rw [if_pos rfl]), rfl⟩

/-- The pipeline after a step of the manager. -/
theorem Consistent.setUp (h : Consistent s) {options : Nat → Options}
    {event : ConsumerManager.Event} {manager : ConsumerManager.State}
    (hsteps : ConsumerManager.Steps s.manager event manager)
    (hmanager : t.manager = s.manager)
    (hpipeline : Reach ConsumePipeline.step anyStep ConsumePipeline.start t.pipeline)
    (hsubs : t.pipeline.subscriptions = s.pipeline.subscriptions) :
    Reach ConsumePipeline.step Arranges t.pipeline (t.setUp options event).pipeline ∧
    ∀ {k sub}, (t.setUp options event).pipeline.subscriptions.get? k = some sub →
      ∃ setup, manager.setups[k]? = some setup ∧ started setup.stage := by
  have hkept : ∀ {k sub}, t.pipeline.subscriptions.get? k = some sub →
      ∃ setup, manager.setups[k]? = some setup ∧ started setup.stage := by
    intro k sub hsub
    rw [hsubs] at hsub
    obtain ⟨setup, hk, hstarted⟩ := h.subscriptions hsub
    rcases hsteps.setup_kept hk with hk' | ⟨stage, hmove, hk'⟩
    · exact ⟨setup, hk', hstarted⟩
    · exact ⟨_, hk', started_of_move hmove hstarted⟩
  cases hsteps with
  | @setupContinues k setup channel hk hstage =>
    unfold State.setUp State.setupContinues
    dsimp only
    rw [hmanager, hk]
    obtain ⟨consumer, caller, pool, stage⟩ := setup
    cases hstage
    dsimp only
    split
    · next hours =>
      have hfresh : k ∉ t.pipeline.subscriptions := by
        rw [hsubs, OrderedMap.not_mem_iff]
        refine Option.eq_none_iff_forall_ne_some.mpr fun sub hsub => ?_
        obtain ⟨setup, hk', hstarted⟩ := h.subscriptions hsub
        cases hk.symm.trans hk'
        cases hstarted
      obtain ⟨hreach, hsubs'⟩ := createProcessor_pipeline hpipeline (options consumer) hfresh
        consumer channel
      refine ⟨hreach, fun {j sub} hsub => ?_⟩
      rw [hsubs', OrderedMap.get?_set] at hsub
      split at hsub
      · next hj =>
        subst hj
        have hcancelled : s.manager.cancelled consumer = false := by
          simpa using hours.2
        exact setupContinues_started hk hours.1 hcancelled
      · exact hkept hsub
    · exact ⟨.refl, hkept⟩
  | _ => exact ⟨.refl, hkept⟩

/-! ## Consumes -/

theorem consume_held {manager : ConsumerManager.State} {i : Nat}
    {consume : ConsumerManager.Consume} (hi : manager.consumes[i]? = some consume) :
    manager.held[i]? = some consume.held := by
  rw [ConsumerManager.State.held, List.getElem?_map, hi]
  rfl

/-- A consume stays, with its consumer. -/
theorem consume_kept {m m' : ConsumerManager.State} {event : ConsumerManager.Event}
    (hsteps : ConsumerManager.Steps m event m') {i : Nat} {consume : ConsumerManager.Consume}
    (hi : m.consumes[i]? = some consume) :
    ∃ consume', m'.consumes[i]? = some consume' ∧ consume'.consumer = consume.consumer := by
  have hheld : m'.held[i]? = some consume.held := by
    rcases hsteps.held with heq | ⟨_, _, _, _, _, _, _, heq⟩
    · rw [heq]
      exact consume_held hi
    · rw [heq]
      exact List.getElem?_append_of (consume_held hi) _
  rw [ConsumerManager.State.held, List.getElem?_map] at hheld
  obtain ⟨consume', hi', heq⟩ := Option.map_eq_some_iff.mp hheld
  exact ⟨consume', hi', congrArg ConsumerManager.Tracked.consumer heq⟩

theorem consumes_length {m m' : ConsumerManager.State} {event : ConsumerManager.Event}
    (hsteps : ConsumerManager.Steps m event m') {setups : List Nat}
    (h : setups.length = m.consumes.length) :
    (consumed setups event).length = m'.consumes.length := by
  have hcancel : ∀ channel consumerTag,
      (m.cancel channel consumerTag).consumes.length = m.consumes.length := by
    intro channel consumerTag
    have hheld := congrArg List.length (ConsumerManager.cancel_held (s := m) channel consumerTag)
    simpa [ConsumerManager.State.held] using hheld
  cases hsteps with
  | consumeOk =>
    simp [consumed, ConsumerManager.State.consumeOk, ConsumerManager.State.setSetup, h]
  | unsubscribeCancelled | setupCancelled =>
    simp [consumed, h, ConsumerManager.State.unsubscribeCancelled,
      ConsumerManager.State.dropConsumer, ConsumerManager.State.setUnsubscribe,
      hcancel]
  | _ =>
    simp [consumed, h, ConsumerManager.State.setLoop, ConsumerManager.State.setDrop,
      ConsumerManager.State.setSetup, ConsumerManager.State.modifyConsumer,
      ConsumerManager.State.channelOpened, ConsumerManager.State.tryAgain,
      ConsumerManager.State.closePool, ConsumerManager.State.connectionLost]

/-! ## Steps of the manager -/

theorem Consistent.owner_kept (h : Consistent s) {event : ConsumerManager.Event}
    (hsteps : ConsumerManager.Steps s.manager event t.manager) :
    ∀ tag d, s.pipeline.deliveries.get? tag = some d →
      t.consumerOf d.subscription = s.consumerOf d.subscription := by
  intro tag d hd
  obtain ⟨setup, _, howner, _⟩ := h.delivery hd
  rw [howner]
  exact consumerOf_kept hsteps howner

/-- No delivery belongs to a consumer that is not there yet. -/
theorem Consistent.inside_new (h : Consistent s) :
    s.inside s.manager.consumers.length = 0 := by
  refine OrderedMap.count_eq_zero_iff.mpr fun tag d hd => ?_
  obtain ⟨setup, _, howner, hlt⟩ := h.delivery hd
  rw [howner]
  refine decide_eq_false fun ⟨heq, _⟩ => ?_
  rw [Option.some_inj.mp heq] at hlt
  exact Nat.lt_irrefl _ hlt

/-- What a step of the manager does to the pipeline, the pipeline can do by itself. -/
theorem Consistent.arranged (h : Consistent s) (options : Nat → Options)
    {event : ConsumerManager.Event} {manager : ConsumerManager.State}
    (hsteps : ConsumerManager.Steps s.manager event manager) :
    Reach ConsumePipeline.step Arranges s.pipeline (s.managed options event manager).pipeline ∧
    ∀ {k sub}, (s.managed options event manager).pipeline.subscriptions.get? k = some sub →
      ∃ setup, manager.setups[k]? = some setup ∧ started setup.stage := by
  obtain ⟨hdmanager, -, -, -, -, -, -, -, hdsubs⟩ := disposes_frame s (disposed s.manager event)
  obtain ⟨-, -, -, -, hpipeline, -⟩ := goesOn_frame
    (((disposed s.manager event).foldl State.dispose s).setUp options event) manager
  have hdisposes := disposes_pipeline h.pipeline (disposed s.manager event)
  obtain ⟨hreach, hsubs⟩ := h.setUp hsteps hdmanager
    (h.pipeline.trans hdisposes.toAny) hdsubs
  rw [State.managed, hpipeline]
  exact ⟨hdisposes.trans hreach, hsubs⟩

theorem Consistent.managed (h : Consistent s) (options : Nat → Options)
    {event : ConsumerManager.Event} {manager : ConsumerManager.State}
    (hs : ConsumerManager.step s.manager event = some manager) (hcounts : event.counts = false) :
    Consistent (s.managed options event manager) := by
  have hsteps := ConsumerManager.step_cases hs
  obtain ⟨hmanager, hsetups, -, -, hdeliveries, -⟩ := managed_frame s options event manager
  have howners := h.owner_kept (t := s.managed options event manager) (hmanager ▸ hsteps)
  obtain ⟨hreach, hsubs⟩ := h.arranged options hsteps
  refine ⟨?_, h.pipeline.trans hreach.toAny, ?_, ?_, ?_, ?_⟩
  · rw [hmanager]
    exact h.manager.tail trivial hs
  · rw [hsetups, hmanager]
    exact consumes_length hsteps h.consumeSetups
  · intro i k hk
    rw [hsetups] at hk
    rw [hmanager]
    have hold : s.consumeSetups[i]? = some k → ∃ setup consume,
        manager.setups[k]? = some setup ∧ manager.consumes[i]? = some consume ∧
          setup.consumer = consume.consumer := by
      intro hk
      obtain ⟨setup, consume, hsetup, hconsume, heq⟩ := h.consumes hk
      obtain ⟨consume', hconsume', heq'⟩ := consume_kept hsteps hconsume
      rcases hsteps.setup_kept hsetup with hsetup' | ⟨stage, _, hsetup'⟩
      · exact ⟨setup, consume', hsetup', hconsume', heq.trans heq'.symm⟩
      · exact ⟨_, consume', hsetup', hconsume', heq.trans heq'.symm⟩
    cases hsteps with
    | @consumeOk j setup channel consumerTag hj hstage =>
      rcases List.getElem?_append_cases hk with hk | ⟨rfl, rfl⟩
      · exact hold hk
      · have hconsume : (s.manager.consumeOk k setup channel consumerTag).consumes[
            s.consumeSetups.length]? = some ⟨setup.consumer, channel, consumerTag, true⟩ := by
          rw [h.consumeSetups]
          exact List.getElem?_concat_length
        have hsetup : (s.manager.consumeOk k setup channel consumerTag).setups[k]? =
            some { setup with stage := .consumed channel consumerTag } :=
          (List.getElem?_modify_of hj).trans (by rw [if_pos rfl])
        exact ⟨_, _, hsetup, hconsume, rfl⟩
    | _ => exact hold hk
  · rw [hmanager]
    exact hsubs
  · intro consumer c hc
    rw [hmanager] at hc
    rw [(inside_congr hdeliveries howners).1]
    cases hsteps.consumer_cases hc with
    | kept hc₀ hkeeps => exact hkeeps.inFlight.trans (h.inFlight hc₀)
    | tracked hc₀ _ _ hkeeps =>
      have hflight := h.inFlight hc₀
      exact hkeeps.inFlight.trans hflight
    | counted _ hcounts' =>
      rw [hcounts] at hcounts'
      cases hcounts'
    | begins hnew _ hkeeps =>
      rw [hkeeps.inFlight, hnew, h.inside_new]

/-! ## Deliveries -/

/-- A delivery enters the pipeline of its consumer. -/
theorem Consistent.delivers (h : Consistent s) {env : ConsumePipeline.Env α} {i k : Nat}
    {message : Message α} {manager : ConsumerManager.State} {pipeline : ConsumePipeline.State α}
    (hk : s.consumeSetups[i]? = some k)
    (hmanager : ConsumerManager.step s.manager (.delivered i) = some manager)
    (hpipeline : ConsumePipeline.step s.pipeline (env, .deliver k message) = some pipeline) :
    ∃ consume, s.manager.consumes[i]? = some consume ∧
      manager = s.manager.modifyConsumer consume.consumer
        (fun c => { c with inFlight := c.inFlight + 1 }) ∧
      ∀ X, State.inside { s with manager, pipeline } X =
          s.inside X + (decide (X = consume.consumer)).toNat ∧
        State.entered { s with manager, pipeline } X =
          s.entered X + (decide (X = consume.consumer)).toNat := by
  obtain ⟨setup, consume, hsetup, hconsume, hconsumer⟩ := h.consumes hk
  cases ConsumerManager.step_cases hmanager with
  | delivered hi =>
    cases hi.symm.trans hconsume
    refine ⟨consume, hconsume, rfl, fun X => ?_⟩
    have howner : s.consumerOf k = some consume.consumer := by
      rw [State.consumerOf, hsetup, Option.map_some, hconsumer]
    have hours : s.consumerOf k = some X ↔ X = consume.consumer := by
      rw [howner, Option.some_inj, eq_comm]
    cases ConsumePipeline.step_cases hpipeline with
    | deliver _ hfresh =>
      have hnone := OrderedMap.not_mem_iff.mp hfresh
      constructor
      · refine (OrderedMap.count_set_of_get?_none hnone _).trans (congrArg _ (congrArg Bool.toNat ?_))
        exact decide_eq_decide.mpr ((and_iff_left rfl).trans hours)
      · refine (OrderedMap.count_set_of_get?_none hnone _).trans (congrArg _ (congrArg Bool.toNat ?_))
        exact decide_eq_decide.mpr hours

theorem Consistent.deliver (h : Consistent s) {env : ConsumePipeline.Env α} {i k : Nat}
    {message : Message α} {manager : ConsumerManager.State} {pipeline : ConsumePipeline.State α}
    (hk : s.consumeSetups[i]? = some k)
    (hmanager : ConsumerManager.step s.manager (.delivered i) = some manager)
    (hpipeline : ConsumePipeline.step s.pipeline (env, .deliver k message) = some pipeline) :
    Consistent { s with manager, pipeline } := by
  obtain ⟨consume, hconsume, heq, hcounts⟩ := h.delivers hk hmanager hpipeline
  have hsubs : pipeline.subscriptions = s.pipeline.subscriptions := by
    cases ConsumePipeline.step_cases hpipeline with
    | deliver => rfl
  refine ⟨h.manager.tail trivial hmanager, h.pipeline.tail trivial hpipeline, ?_, ?_, ?_, ?_⟩
  · rw [heq]
    exact h.consumeSetups
  · rw [heq]
    exact h.consumes
  · rw [heq, hsubs]
    exact h.subscriptions
  · intro X c' hc'
    rw [(hcounts X).1]
    subst heq
    obtain ⟨c, hc, rfl⟩ := List.getElem?_modify_cases hc'
    have hflight := h.inFlight hc
    split
    · next hX =>
      rw [← hflight, decide_eq_true hX.symm]
      rfl
    · next hX =>
      rw [← hflight, decide_eq_false (Ne.symm hX)]
      rfl

/-! ## Steps of the pipeline -/

/-- What a step of the pipeline does to the count of a consumer. -/
inductive Piped (s t : State α) : Prop
  | stays (hmanager : t.manager = s.manager) (hwaiters : t.drainWaiters = s.drainWaiters)
      (hresolved : t.resolved = s.resolved) (hinside : ∀ X, t.inside X = s.inside X)
  | returns {X c} (hc : s.manager.consumers[X]? = some c)
      (hmanager : t.manager = s.manager.handled X c)
      (hinside : ∀ Y, s.inside Y = t.inside Y + (decide (Y = X)).toNat)
      (hlast : (c.inFlight = 1 ∧ t.drainWaiters = s.drainWaiters.erase X ∧
          t.resolved = s.resolved ++ s.waiters X) ∨
        (c.inFlight ≠ 1 ∧ t.drainWaiters = s.drainWaiters ∧ t.resolved = s.resolved))

omit [DecidableEq α] [ToString α] in
theorem finish_frame (s : State α) (tag : Nat) :
    let t := s.finish tag
    t.pipeline = s.pipeline ∧ t.consumeSetups = s.consumeSetups ∧ t.now = s.now ∧
    t.drains = s.drains ∧ t.sequentialProcessor = s.sequentialProcessor ∧
    t.manager.setups = s.manager.setups := by
  unfold State.finish
  split
  · simp
  · split
    · simp
    · dsimp only
      split <;> simp

omit [DecidableEq α] [ToString α] in
theorem piped_frame (s : State α) (event : ConsumePipeline.Event α)
    (pipeline : ConsumePipeline.State α) :
    let t := s.piped event pipeline
    t.pipeline = pipeline ∧ t.consumeSetups = s.consumeSetups ∧ t.now = s.now ∧
    t.drains = s.drains ∧ t.sequentialProcessor = s.sequentialProcessor ∧
    t.manager.setups = s.manager.setups := by
  unfold State.piped
  split
  · simp
  · split
    · exact finish_frame ..
    · simp

omit [DecidableEq α] [ToString α] in
theorem any_place (pipeline : ConsumePipeline.State α) (tag : Nat)
    (p : Nat → ConsumePipeline.Stage → Bool) :
    ((pipeline.deliveries.get? tag).any fun d => p d.subscription d.stage) =
      (pipeline.place? tag).any fun q => p q.1 q.2 := by
  rw [ConsumePipeline.State.place?]
  cases pipeline.deliveries.get? tag <;> rfl

omit [DecidableEq α] [ToString α] in
theorem any_subscription {pipeline pipeline' : ConsumePipeline.State α} {tag : Nat}
    (h : (pipeline'.place? tag).map Prod.fst = (pipeline.place? tag).map Prod.fst)
    (p : Nat → Bool) :
    ((pipeline.place? tag).any fun q => p q.1) = (pipeline'.place? tag).any fun q => p q.1 := by
  cases hp : pipeline.place? tag <;> cases hp' : pipeline'.place? tag <;> simp_all

/-- How many deliveries of a consumer are inside a pipeline, by the consumers of its
subscriptions. -/
def countInside (owner : Nat → Option Nat) (pipeline : ConsumePipeline.State α) (X : Nat) : Nat :=
  pipeline.deliveries.count fun _ d => decide (owner d.subscription = some X ∧ d.stage.inside)

/-- Whose callback is running, if any. -/
def insideOf (pipeline : ConsumePipeline.State α) (tag : Nat) : Option (Nat × Bool) :=
  (pipeline.place? tag).map fun q => (q.1, q.2.inside)

section CountInside

omit [DecidableEq α] [ToString α]

variable {owner : Nat → Option Nat} {p p' : ConsumePipeline.State α} {id X : Nat}

theorem any_insideOf (tag : Nat) :
    ((p.deliveries.get? tag).any fun d =>
      decide (owner d.subscription = some X ∧ d.stage.inside)) =
    (insideOf p tag).any fun q => decide (owner q.1 = some X) && q.2 := by
  rw [insideOf, ConsumePipeline.State.place?]
  cases p.deliveries.get? tag with
  | none => rfl
  | some d => exact Bool.decide_and _ _ |>.trans (by simp)

theorem countInside_congr (hkeys : p.deliveries.keys = p'.deliveries.keys)
    (h : ∀ tag, insideOf p tag = insideOf p' tag) :
    countInside owner p X = countInside owner p' X := by
  refine OrderedMap.count_congr hkeys fun tag => ?_
  rw [any_insideOf, any_insideOf, h]

/-- One callback has returned. -/
theorem countInside_of_return (hkeys : p.deliveries.keys = p'.deliveries.keys)
    (h : ∀ t, t ≠ tag → insideOf p t = insideOf p' t) (hbefore : insideOf p tag = some (id, true))
    (hafter : insideOf p' tag = some (id, false)) :
    countInside owner p X = countInside owner p' X + (decide (owner id = some X)).toNat := by
  by_cases hX : owner id = some X
  · rw [decide_eq_true hX]
    refine OrderedMap.count_of_drop (k := tag) hkeys (fun t ht => ?_) ?_ ?_
    · rw [any_insideOf, any_insideOf, h t ht]
    · rw [any_insideOf, hbefore]
      simpa using hX
    · rw [any_insideOf, hafter]
      simp
  · rw [decide_eq_false hX, Bool.toNat_false, Nat.add_zero]
    refine OrderedMap.count_congr hkeys fun t => ?_
    rw [any_insideOf, any_insideOf]
    rcases eq_or_ne t tag with rfl | ht
    · rw [hbefore, hafter]
      simp [hX]
    · rw [h t ht]

/-- The `finally` block of a delivery of the consumer `X`. -/
theorem finish_returns {pipeline : ConsumePipeline.State α} {d : ConsumePipeline.Delivery α}
    {c : ConsumerManager.Consumer} (hd : pipeline.deliveries.get? tag = some d)
    (hX : s.consumerOf d.subscription = some X) (hc : s.manager.consumers[X]? = some c) :
    let t := { s with pipeline }.finish tag
    t.manager = s.manager.handled X c ∧
      ((c.inFlight = 1 ∧ t.drainWaiters = s.drainWaiters.erase X ∧
          t.resolved = s.resolved ++ s.waiters X) ∨
        (c.inFlight ≠ 1 ∧ t.drainWaiters = s.drainWaiters ∧ t.resolved = s.resolved)) := by
  have hbind : ((pipeline.deliveries.get? tag).bind fun d =>
      State.consumerOf { s with pipeline } d.subscription) = some X := by
    rw [hd]
    exact hX
  simp only [State.finish, hbind, hc]
  split
  · next hone => exact ⟨rfl, .inl ⟨hone, rfl, rfl⟩⟩
  · next hone => exact ⟨rfl, .inr ⟨hone, rfl, rfl⟩⟩

end CountInside

/-- A step of the pipeline leaves the count as it is, or one callback returns. -/
theorem Consistent.pipes (h : Consistent s) {env : ConsumePipeline.Env α}
    {event : ConsumePipeline.Event α} {pipeline : ConsumePipeline.State α}
    (hown : fromManager event = false)
    (hs : ConsumePipeline.step s.pipeline (env, event) = some pipeline) :
    Piped s (s.piped event pipeline) ∧
      ∀ X, (s.piped event pipeline).entered X = s.entered X := by
  have hdeliver : ∀ id message, event ≠ .deliver id message := by
    rintro id message rfl
    cases hown
  obtain ⟨hmoves, hinside⟩ := (ConsumePipeline.step_cases hs).moves
    (ConsumePipeline.running h.pipeline)
    (fun tag d hd => ((ConsumePipeline.accounted h.pipeline).attributed.delivery tag d hd).1)
    hdeliver
  obtain ⟨hpipeline, -, -, -, -, hsetups⟩ := piped_frame s event pipeline
  have howner : (s.piped event pipeline).consumerOf = s.consumerOf := by
    funext id
    rw [State.consumerOf, State.consumerOf, hsetups]
  have hcount : ∀ X, (s.piped event pipeline).inside X = countInside s.consumerOf pipeline X := by
    intro X
    rw [State.inside, howner, hpipeline]
    rfl
  have hothers : ∀ t, event.delivery? ≠ some t → insideOf s.pipeline t = insideOf pipeline t := by
    intro t hne
    rw [insideOf, insideOf, hmoves.others t hne]
  constructor
  · cases hevent : event.delivery? with
    | none =>
      have hpiped : s.piped event pipeline = { s with pipeline } := by
        rw [State.piped, hevent]
      refine .stays (by rw [hpiped]) (by rw [hpiped]) (by rw [hpiped]) fun X => ?_
      rw [hcount]
      exact (countInside_congr hmoves.keys.symm fun t => hothers t (by rw [hevent]; nofun)).symm
    | some tag =>
      obtain ⟨id, stage, hplace, hin⟩ := hinside tag hevent
      have hsub := hmoves.subscription tag
      rw [hplace] at hsub
      obtain ⟨⟨id', stage'⟩, hplace', rfl⟩ := Option.map_eq_some_iff.mp hsub
      have hbefore : insideOf s.pipeline tag = some (id', true) := by
        rw [insideOf, hplace, Option.map_some, hin]
      have hafter : insideOf pipeline tag = some (id', stage'.inside) := by
        rw [insideOf, hplace']
        rfl
      have hisInside : s.pipeline.isInside tag = true ∧ pipeline.isInside tag = stage'.inside := by
        rw [ConsumePipeline.State.isInside, ConsumePipeline.State.isInside, hplace, hplace']
        exact ⟨hin, rfl⟩
      have hother : ∀ t, t ≠ tag → insideOf s.pipeline t = insideOf pipeline t := by
        intro t hne
        refine hothers t fun heq => hne ?_
        rw [hevent] at heq
        exact (Option.some_inj.mp heq).symm
      cases hstage : stage'.inside with
      | true =>
        have hpiped : s.piped event pipeline = { s with pipeline } := by
          rw [State.piped, hevent]
          exact if_neg (by simp [hisInside.2, hstage])
        refine .stays (by rw [hpiped]) (by rw [hpiped]) (by rw [hpiped]) fun X => ?_
        rw [hcount]
        refine (countInside_congr hmoves.keys.symm fun t => ?_).symm
        rcases eq_or_ne t tag with rfl | hne
        · rw [hbefore, hafter, hstage]
        · exact hother t hne
      | false =>
        rw [hstage] at hafter hisInside
        obtain ⟨d₀, hd₀, heq₀⟩ := Option.map_eq_some_iff.mp hplace
        obtain ⟨d, hd, heq⟩ := Option.map_eq_some_iff.mp hplace'
        obtain ⟨setup, -, hX, hlt⟩ := h.delivery hd₀
        rw [(Prod.mk.inj heq₀).1] at hX
        have hc := List.getElem?_eq_getElem hlt
        have hpiped : s.piped event pipeline = { s with pipeline }.finish tag := by
          rw [State.piped, hevent]
          exact if_pos (by simp [hisInside])
        rw [hpiped] at hcount ⊢
        have hdX : s.consumerOf d.subscription = some setup.consumer := by
          rw [(Prod.mk.inj heq).1]
          exact hX
        obtain ⟨hmanager, hlast⟩ := finish_returns hd hdX hc
        refine .returns hc hmanager (fun Y => ?_) hlast
        rw [hcount]
        refine (countInside_of_return hmoves.keys.symm hother hbefore hafter).trans ?_
        rw [hX]
        exact congrArg _ (congrArg Bool.toNat (decide_eq_decide.mpr (by rw [Option.some_inj, eq_comm])))
  · intro X
    rw [State.entered, State.entered, howner, hpipeline]
    refine (OrderedMap.count_congr hmoves.keys.symm fun tag => ?_).symm
    rw [any_place s.pipeline tag fun id _ => decide (s.consumerOf id = some X),
      any_place pipeline tag fun id _ => decide (s.consumerOf id = some X)]
    exact any_subscription (hmoves.subscription tag) fun id => decide (s.consumerOf id = some X)

theorem handled_step {manager : ConsumerManager.State} {X : Nat} {c : ConsumerManager.Consumer}
    (hquiet : manager.recreating = []) (hc : manager.consumers[X]? = some c)
    (hflight : 0 < c.inFlight) :
    ConsumerManager.step manager (.handled X) = some (manager.handled X c) := by
  simp [ConsumerManager.step, hquiet, hc, hflight]

theorem handled_consumers {manager : ConsumerManager.State} {X Y : Nat}
    {c c' : ConsumerManager.Consumer}
    (h : (manager.handled X c).consumers[Y]? = some c') :
    ∃ c₀, manager.consumers[Y]? = some c₀ ∧
      c'.inFlight = c₀.inFlight - (decide (Y = X)).toNat := by
  have hmodify : (manager.consumers.modify X
      fun c => { c with inFlight := c.inFlight - 1 })[Y]? = some c' := by
    unfold ConsumerManager.State.handled at h
    dsimp only at h
    split at h <;> exact h
  obtain ⟨c₀, hc₀, rfl⟩ := List.getElem?_modify_cases hmodify
  refine ⟨c₀, hc₀, ?_⟩
  split
  · next hX =>
    rw [decide_eq_true hX.symm]
    rfl
  · next hX =>
    rw [decide_eq_false (Ne.symm hX)]
    rfl

theorem Consistent.pipe (h : Consistent s) {env : ConsumePipeline.Env α}
    {event : ConsumePipeline.Event α} {pipeline : ConsumePipeline.State α}
    (hown : fromManager event = false) (hquiet : s.manager.recreating = [])
    (hs : ConsumePipeline.step s.pipeline (env, event) = some pipeline) :
    Consistent (s.piped event pipeline) := by
  obtain ⟨hpipeline, hsetups, -, -, -, hmsetups⟩ := piped_frame s event pipeline
  have hreach : Reach ConsumePipeline.step anyStep ConsumePipeline.start
      (s.piped event pipeline).pipeline := by
    rw [hpipeline]
    exact h.pipeline.tail trivial hs
  have hsubs : pipeline.subscriptions = s.pipeline.subscriptions := by
    refine (ConsumePipeline.step_cases hs).subscriptions ?_
    rintro id sub rfl
    cases hown
  have hsubscriptions : ∀ {k sub}, (s.piped event pipeline).pipeline.subscriptions.get? k =
      some sub → ∃ setup, (s.piped event pipeline).manager.setups[k]? = some setup ∧
        started setup.stage := by
    rw [hpipeline, hsubs, hmsetups]
    exact h.subscriptions
  cases (h.pipes hown hs).1 with
  | stays hmanager _ _ hinside =>
    refine ⟨?_, hreach, ?_, ?_, hsubscriptions, ?_⟩
    · rw [hmanager]
      exact h.manager
    · rw [hsetups, hmanager]
      exact h.consumeSetups
    · rw [hsetups, hmanager]
      exact h.consumes
    · intro X c hc
      rw [hmanager] at hc
      rw [hinside]
      exact h.inFlight hc
  | @returns X c hc hmanager hinside _ =>
    have hpos : 0 < c.inFlight := by
      rw [h.inFlight hc, hinside X, decide_eq_true rfl]
      exact Nat.succ_pos _
    have hconsumes : (s.manager.handled X c).consumes = s.manager.consumes := by simp
    have hsame : (s.manager.handled X c).setups = s.manager.setups := by simp
    refine ⟨?_, hreach, ?_, ?_, hsubscriptions, ?_⟩
    · rw [hmanager]
      exact h.manager.tail trivial (handled_step hquiet hc hpos)
    · rw [hsetups, hmanager, hconsumes]
      exact h.consumeSetups
    · rw [hsetups, hmanager, hconsumes, hsame]
      exact h.consumes
    · intro Y c' hc'
      rw [hmanager] at hc'
      obtain ⟨c₀, hc₀, hflight⟩ := handled_consumers hc'
      have hbefore := h.inFlight hc₀
      have hafter := hinside Y
      omega

/-- In every state that is reached, a consumer counts the deliveries that are inside the pipeline. -/
theorem Consistent.step (h : Consistent s) {options : Nat → Options} {drainTimeout : Nat}
    {event : Event α} (hsteps : Steps options drainTimeout s event t) : Consistent t := by
  cases hsteps with
  | @manager event _ hdue hs =>
    refine h.managed options hs ?_
    cases event with
    | delivered | handled => cases hdue
    | _ => rfl
  | deliver hk hmanager hpipeline => exact h.deliver hk hmanager hpipeline
  | pipeline hown hquiet hs => exact h.pipe hown hquiet hs
  | tick =>
    exact ⟨h.manager, h.pipeline, h.consumeSetups, h.consumes, h.subscriptions, h.inFlight⟩

theorem consistent {options : Nat → Options} {drainTimeout : Nat}
    {ok : State α → Event α → Prop} (hr : Reach (step options drainTimeout) ok start s) :
    Consistent s :=
  hr.invariant consistent_start fun h _ hs => h.step (step_cases hs)

end Consuming
end RabbitMQ

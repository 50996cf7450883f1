import RabbitMQ.Consumers.Consuming.Counting
import RabbitMQ.Consumers.ConsumePipeline.Custody
import RabbitMQ.Consumers.ConsumePipeline.Settlement
import RabbitMQ.Consumers.ConsumerManager.OpenChannels

/-! A processor that is disposed of strands no delivery: what it has parked came on a channel that is
no longer open.

A close of the channel, a lost connection and a drop that gives up leave nothing on an open channel.
A setup that goes on is another matter: it replaces the processor of its consumer, and the channel
it was given may be the one that the consumer still has. -/

namespace RabbitMQ
namespace Consuming

open Transition

variable {α : Type} {s t : State α} {options : Nat → Options}
  {consumer channel tag id k : Nat}

/-- The setup has its channel and goes on to `createProcessor`. -/
structure State.Creates (s : State α) (options : Nat → Options) (k : Nat)
    (setup : ConsumerManager.Setup) (channel : Nat) : Prop where
  get : s.manager.setups[k]? = some setup
  opened : setup.stage = .opened channel
  active : setup.consumer ∈ s.manager.activeConsumers
  live : s.manager.cancelled setup.consumer = false
  sequential : (options setup.consumer).sequential.isSome

/-! ## What a step of the manager does to the processors -/

/-- The current processor of a consumer is disposed of, or none is. -/
theorem dispose_processor (s : State α) (consumer id : Nat) :
    (s.dispose consumer).pipeline.processors.get? id = s.pipeline.processors.get? id ∨
    (s.sequentialProcessor.get? consumer = some id ∧ ∃ p, s.pipeline.processors.get? id = some p ∧
      (s.dispose consumer).pipeline.processors.get? id = some (SequentialProcessor.dispose p)) := by
  unfold State.dispose
  split
  · exact .inl rfl
  · next j hj =>
    split
    · exact .inl rfl
    · next p hp =>
      dsimp only
      rw [OrderedMap.get?_set]
      split
      · next heq =>
        subst heq
        exact .inr ⟨hj, p, hp, rfl⟩
      · exact .inl rfl

theorem disposes_processor (s : State α) (consumers : List Nat) (id : Nat) :
    (consumers.foldl State.dispose s).pipeline.processors.get? id =
      s.pipeline.processors.get? id ∨
    ((∃ consumer ∈ consumers, s.sequentialProcessor.get? consumer = some id) ∧
      ∃ p, s.pipeline.processors.get? id = some p ∧
        (consumers.foldl State.dispose s).pipeline.processors.get? id =
          some (SequentialProcessor.dispose p)) := by
  induction consumers generalizing s with
  | nil => exact .inl rfl
  | cons consumer consumers ih =>
    obtain ⟨-, -, hsequential, -⟩ := dispose_frame s consumer
    have hfirst := dispose_processor s consumer id
    have hrest := ih (s.dispose consumer)
    rw [hsequential] at hrest
    rw [List.foldl_cons]
    rcases hrest with hrest | ⟨⟨X, hX, hcurrent⟩, p', hp', hrest⟩
    · rw [hrest]
      exact hfirst.imp_right fun ⟨hcurrent, hp⟩ => ⟨⟨consumer, List.mem_cons_self, hcurrent⟩, hp⟩
    · refine .inr ⟨⟨X, List.mem_cons_of_mem _ hX, hcurrent⟩, ?_⟩
      rcases hfirst with hfirst | ⟨-, p, hp, hfirst⟩
      · exact ⟨p', hfirst ▸ hp', hrest⟩
      · cases hfirst.symm.trans hp'
        exact ⟨p, hp, hrest⟩

/-- The consumer whose current processor a step of the manager disposes of. -/
def Discards (s : State α) (options : Nat → Options) (event : ConsumerManager.Event)
    (consumer : Nat) : Prop :=
  consumer ∈ disposed s.manager event ∨
    ∃ k setup channel, event = .setupContinues k ∧ s.Creates options k setup channel ∧
      setup.consumer = consumer

/-- What a step of the manager can be for a processor. -/
inductive Rearranged (s t : State α) (options : Nat → Options) (event : ConsumerManager.Event)
    (id : Nat) : Prop
  | kept (hget : t.pipeline.processors.get? id = s.pipeline.processors.get? id)
  | discarded {consumer : Nat} {p : SequentialProcessor.State α}
      (hcurrent : s.sequentialProcessor.get? consumer = some id)
      (hwhy : Discards s options event consumer)
      (hp : s.pipeline.processors.get? id = some p)
      (hget : t.pipeline.processors.get? id = some (SequentialProcessor.dispose p))
  | created {setup : ConsumerManager.Setup} {channel : Nat} (hevent : event = .setupContinues id)
      (hcreates : s.Creates options id setup channel)
      (hget : t.pipeline.processors.get? id = some SequentialProcessor.start)

/-- What a step of the manager can be for the current processor of a consumer. -/
inductive Current (s t : State α) (options : Nat → Options) (event : ConsumerManager.Event)
    (consumer id : Nat) : Prop
  | kept (hget : s.sequentialProcessor.get? consumer = some id)
  | created {setup : ConsumerManager.Setup} {channel : Nat} (hevent : event = .setupContinues id)
      (hcreates : s.Creates options id setup channel) (hconsumer : setup.consumer = consumer)
      (hget : t.pipeline.processors.get? id = some SequentialProcessor.start)

/-- A setup that goes on creates its processor, or leaves the processors alone. -/
theorem setUp_cases (hmanager : t.manager = s.manager) (options : Nat → Options)
    (event : ConsumerManager.Event) :
    ((t.setUp options event).pipeline.processors = t.pipeline.processors ∧
      (t.setUp options event).sequentialProcessor = t.sequentialProcessor) ∨
    ∃ k setup channel, event = .setupContinues k ∧ s.Creates options k setup channel ∧
      (t.setUp options event).pipeline.processors =
        (t.dispose setup.consumer).pipeline.processors.set k SequentialProcessor.start ∧
      (t.setUp options event).sequentialProcessor =
        t.sequentialProcessor.set setup.consumer k := by
  cases event with
  | setupContinues k =>
    unfold State.setUp State.setupContinues
    dsimp only
    split
    · next consumer caller pool channel hk =>
      rw [hmanager] at hk
      split
      · next hours =>
        rw [hmanager] at hours
        unfold State.createProcessor
        cases hsequential : (options consumer).sequential with
        | none => exact .inl ⟨rfl, rfl⟩
        | some staleTimeout =>
          refine .inr ⟨k, _, channel, rfl, ⟨hk, rfl, hours.1, ?_, ?_⟩, rfl, rfl⟩
          · simpa using hours.2
          · rw [hsequential]
            rfl
      · exact .inl ⟨rfl, rfl⟩
    · exact .inl ⟨rfl, rfl⟩
  | _ => exact .inl ⟨rfl, rfl⟩

theorem managed_processor (s : State α) (options : Nat → Options) (event : ConsumerManager.Event)
    (manager : ConsumerManager.State) (id : Nat) :
    Rearranged s (s.managed options event manager) options event id := by
  obtain ⟨hmanager, -, hcurrents, -⟩ := disposes_frame s (disposed s.manager event)
  have hdisposes := disposes_processor s (disposed s.manager event) id
  obtain ⟨-, -, -, -, hpipeline, -⟩ := goesOn_frame
    (((disposed s.manager event).foldl State.dispose s).setUp options event) manager
  have hafter : (s.managed options event manager).pipeline.processors =
      (((disposed s.manager event).foldl State.dispose s).setUp options event).pipeline.processors :=
    congrArg ConsumePipeline.State.processors hpipeline
  rcases setUp_cases hmanager options event with ⟨hprocessors, -⟩ |
    ⟨k, setup, channel, rfl, hcreates, hprocessors, -⟩
  · rw [hprocessors] at hafter
    rcases hdisposes with hget | ⟨⟨X, hX, hcurrent⟩, p, hp, hget⟩
    · exact .kept (by rw [hafter, hget])
    · exact .discarded hcurrent (.inl hX) hp (by rw [hafter, hget])
  · rw [hprocessors] at hafter
    rcases eq_or_ne id k with rfl | hne
    · exact .created rfl hcreates (by rw [hafter, OrderedMap.get?_set_self])
    · have hget : (s.managed options (.setupContinues k) manager).pipeline.processors.get? id =
          (s.dispose setup.consumer).pipeline.processors.get? id := by
        rw [hafter, OrderedMap.get?_set, if_neg hne]
        rfl
      rcases dispose_processor s setup.consumer id with hsame | ⟨hcurrent, p, hp, hdisposed⟩
      · exact .kept (hget.trans hsame)
      · exact .discarded hcurrent (.inr ⟨k, setup, channel, rfl, hcreates, rfl⟩) hp
          (hget.trans hdisposed)

theorem managed_current (s : State α) (options : Nat → Options) (event : ConsumerManager.Event)
    (manager : ConsumerManager.State)
    (hget : (s.managed options event manager).sequentialProcessor.get? consumer = some id) :
    Current s (s.managed options event manager) options event consumer id := by
  obtain ⟨hmanager, -, hcurrents, -⟩ := disposes_frame s (disposed s.manager event)
  obtain ⟨-, -, -, -, hpipeline, hcurrents', -⟩ := goesOn_frame
    (((disposed s.manager event).foldl State.dispose s).setUp options event) manager
  have hafter : (s.managed options event manager).sequentialProcessor =
      (((disposed s.manager event).foldl State.dispose s).setUp options event).sequentialProcessor :=
    hcurrents'
  rw [hafter] at hget
  rcases setUp_cases hmanager options event with ⟨-, hsequential⟩ |
    ⟨k, setup, channel, rfl, hcreates, hprocessors, hsequential⟩
  · rw [hsequential, hcurrents] at hget
    exact .kept hget
  · rw [hsequential, hcurrents, OrderedMap.get?_set] at hget
    split at hget
    · next hconsumer =>
      cases hget
      refine .created rfl hcreates hconsumer.symm ?_
      rw [State.managed, hpipeline, hprocessors, OrderedMap.get?_set_self]
    · exact .kept hget

/-- A subscription that is new is the one of a setup with its channel. -/
theorem setUp_subscription (s : State α) (options : Nat → Options) (event : ConsumerManager.Event)
    {sub : ConsumePipeline.Subscription}
    (hsub : (s.setUp options event).pipeline.subscriptions.get? k = some sub) :
    s.pipeline.subscriptions.get? k = some sub ∨ ∃ setup, event = .setupContinues k ∧
      s.manager.setups[k]? = some setup ∧ setup.stage = .opened sub.channel ∧
      sub.sequential = (options setup.consumer).sequential := by
  cases event with
  | setupContinues j =>
    unfold State.setUp State.setupContinues at hsub
    dsimp only at hsub
    split at hsub
    · next consumer caller pool channel hk =>
      split at hsub
      · have hset : (s.pipeline.subscriptions.set j ⟨channel,
            s.manager.consumers[consumer]?.any (·.noAck), (options consumer).retryPolicy,
            (options consumer).sequential⟩).get? k = some sub := by
          unfold State.createProcessor at hsub
          cases hsequential : (options consumer).sequential with
          | none => rwa [hsequential] at hsub
          | some staleTimeout =>
            rw [hsequential] at hsub
            obtain ⟨-, -, -, -, -, -, -, -, hsubs⟩ := dispose_frame s consumer
            rw [← hsubs]
            exact hsub
        rw [OrderedMap.get?_set] at hset
        split at hset
        · next heq =>
          subst heq
          cases hset
          exact .inr ⟨_, rfl, hk, rfl, rfl⟩
        · exact .inl hset
      · exact .inl hsub
    · exact .inl hsub
  | _ => exact .inl hsub

theorem managed_subscription (s : State α) (options : Nat → Options)
    (event : ConsumerManager.Event) (manager : ConsumerManager.State)
    {sub : ConsumePipeline.Subscription}
    (hsub : (s.managed options event manager).pipeline.subscriptions.get? k = some sub) :
    s.pipeline.subscriptions.get? k = some sub ∨ ∃ setup, event = .setupContinues k ∧
      s.manager.setups[k]? = some setup ∧ setup.stage = .opened sub.channel ∧
      sub.sequential = (options setup.consumer).sequential := by
  obtain ⟨hmanager, -, -, -, -, -, -, -, hsubs⟩ := disposes_frame s (disposed s.manager event)
  obtain ⟨-, -, -, -, hpipeline, -⟩ := goesOn_frame
    (((disposed s.manager event).foldl State.dispose s).setUp options event) manager
  rw [State.managed, hpipeline] at hsub
  rcases setUp_subscription _ options event hsub with hsub | ⟨setup, hevent, hk, hrest⟩
  · exact .inl (hsubs ▸ hsub)
  · exact .inr ⟨setup, hevent, hmanager ▸ hk, hrest⟩

theorem piped_manager (s : State α) (event : ConsumePipeline.Event α)
    (pipeline : ConsumePipeline.State α) :
    let t := s.piped event pipeline
    t.manager.channels = s.manager.channels ∧ t.manager.channelPool = s.manager.channelPool ∧
    t.manager.dedicatedChannels = s.manager.dedicatedChannels ∧
    t.manager.setups = s.manager.setups := by
  unfold State.piped State.finish
  split
  · simp
  · split
    · split
      · simp
      · split
        · simp
        · dsimp only
          split <;> simp
    · simp

/-! ## Channels -/

/-- Subscriptions are on channels of their consumers, and the current processor of a consumer is one
of its setups. -/
structure Attached (options : Nat → Options) (s : State α) : Prop where
  channel : ∀ {k : Nat} {sub : ConsumePipeline.Subscription},
    s.pipeline.subscriptions.get? k = some sub → ∃ consumer c, s.consumerOf k = some consumer ∧
      s.manager.channels[sub.channel]? = some c ∧ c.owner = consumer
  current : ∀ {consumer k : Nat}, s.sequentialProcessor.get? consumer = some k →
    s.consumerOf k = some consumer ∧ (options consumer).sequential.isSome

theorem attached_start : Attached options (start : State α) where
  channel hsub := by cases hsub
  current hk := by cases hk

/-- A state that differs in what is neither a subscription nor a channel. -/
theorem Attached.congr (h : Attached options s)
    (hsubs : t.pipeline.subscriptions = s.pipeline.subscriptions)
    (hcurrents : t.sequentialProcessor = s.sequentialProcessor)
    (hchannels : t.manager.channels = s.manager.channels)
    (hsetups : t.manager.setups = s.manager.setups) : Attached options t := by
  have howner : t.consumerOf = s.consumerOf := by
    funext k
    rw [State.consumerOf, State.consumerOf, hsetups]
  refine ⟨fun {k sub} hsub => ?_, fun {X k} hcurrent => ?_⟩
  · rw [howner, hchannels]
    exact h.channel (hsubs ▸ hsub)
  · rw [howner]
    exact h.current (hcurrents ▸ hcurrent)

/-! ## The condition -/

variable [DecidableEq α] [ToString α] {drainTimeout : Nat}

namespace State

/-- The channel that the delivery came on is open. -/
def onLive (s : State α) (tag : Nat) : Bool :=
  (s.pipeline.deliveries.get? tag).any fun d => s.manager.live d.channel

def Parks (s : State α) (id tag : Nat) : Prop :=
  ∃ p, s.pipeline.processors.get? id = some p ∧ p.Parks tag

/-- A setup is about to replace the processor that has this delivery of an open channel parked. -/
def Replaces (s : State α) (options : Nat → Options) (k tag : Nat) : Prop :=
  ∃ setup channel id, s.Creates options k setup channel ∧
    s.sequentialProcessor.get? setup.consumer = some id ∧ s.Parks id tag ∧ s.onLive tag

/-- The delivery of an open channel is about to be parked in a processor that was disposed of. -/
def Strays (s : State α) (tag : Nat) : Prop :=
  ∃ d p, s.pipeline.deliveries.get? tag = some d ∧
    s.pipeline.processors.get? d.subscription = some p ∧ p.disposed ∧
    d.message.messageId.isSome ∧ (p.unresolved d.message.dependsOn).isSome ∧ s.onLive tag

end State

/-- Channels open one at a time, no parked delivery of an open channel loses its processor to a
setup, and none comes to a processor that has lost its sweep. What is thrown can be rendered, and
`ack` and `nack` throw on a channel that is not open. -/
def Sheltered (options : Nat → Options) (s : State α) : Event α → Prop
  | .manager event => ConsumerManager.OpensAlone s.manager event ∧
    (∀ k tag, event = .setupContinues k → ¬ s.Replaces options k tag) ∧
    -- a sequential consumer has no workers
    ∀ d, event = .removeConsumer d true → ∀ drop ∈ s.manager.drops[d]?,
      (options drop.consumer).sequential = none
  | .pipeline env event => ConsumePipeline.Caught s.pipeline (env, event) ∧
    (∀ tag action, env.refuses tag action → s.onLive tag = false) ∧
    ∀ tag, event = .decoded tag → ¬ s.Strays tag
  | .deliver _ _ _ | .tick _ => True

/-! ## Steps -/

theorem Attached.managed (h : Attached options s) (hconsistent : Consistent s)
    {event : ConsumerManager.Event} {manager : ConsumerManager.State}
    (hs : ConsumerManager.step s.manager event = some manager) :
    Attached options (s.managed options event manager) := by
  have hsteps := ConsumerManager.step_cases hs
  obtain ⟨hmanager, -⟩ := managed_frame s options event manager
  have hkept : ∀ {k X}, s.consumerOf k = some X →
      (s.managed options event manager).consumerOf k = some X := fun hX =>
    consumerOf_kept (t := s.managed options event manager) (hmanager ▸ hsteps) hX
  have hchannel : ∀ {channel : Nat} {c : ConsumerManager.Channel},
      s.manager.channels[channel]? = some c → ∃ c' : ConsumerManager.Channel,
      (s.managed options event manager).manager.channels[channel]? = some c' ∧
        c'.owner = c.owner := by
    intro channel c hc
    obtain ⟨c', hc', -, howner⟩ := hsteps.channel_kept hc
    rw [← hmanager] at hc'
    exact ⟨c', hc', howner⟩
  have howner : ∀ {k setup}, s.manager.setups[k]? = some setup →
      s.consumerOf k = some setup.consumer := by
    intro k setup hk
    rw [State.consumerOf, hk]
    rfl
  refine ⟨fun {k sub} hsub => ?_, fun {X k} hcurrent => ?_⟩
  · rcases managed_subscription s options event manager hsub with
      hsub | ⟨setup, -, hk, hstage, -⟩
    · obtain ⟨X, c, hX, hc, hcX⟩ := h.channel hsub
      obtain ⟨c', hc', hcX'⟩ := hchannel hc
      exact ⟨X, c', hkept hX, hc', hcX'.trans hcX⟩
    · obtain ⟨c, hc, hcX⟩ := (ConsumerManager.owned hconsistent.manager).setups hk
        (show setup.stage.channel? = some sub.channel by rw [hstage]; rfl)
      obtain ⟨c', hc', hcX'⟩ := hchannel hc
      exact ⟨setup.consumer, c', hkept (howner hk), hc', hcX'.trans hcX⟩
  · cases managed_current s options event manager hcurrent with
    | kept hcurrent =>
      obtain ⟨hX, hsequential⟩ := h.current hcurrent
      exact ⟨hkept hX, hsequential⟩
    | created _ hcreates hconsumer =>
      subst hconsumer
      exact ⟨hkept (howner hcreates.get), hcreates.sequential⟩

/-- A delivery came on a channel of its consumer. -/
theorem Attached.delivery (h : Attached options s) (hconsistent : Consistent s)
    {d : ConsumePipeline.Delivery α} (hd : s.pipeline.deliveries.get? tag = some d) :
    ∃ consumer c, s.consumerOf d.subscription = some consumer ∧
      s.manager.channels[d.channel]? = some c ∧ c.owner = consumer := by
  obtain ⟨-, sub, hl, hchannel⟩ :=
    (ConsumePipeline.accounted hconsistent.pipeline).attributed.delivery tag d hd
  obtain ⟨X, c, hX, hc, howner⟩ := h.channel (ConsumePipeline.lookup_eq_some.mp hl).2
  exact ⟨X, c, hX, hchannel ▸ hc, howner⟩

/-- A delivery whose channel is not open stays one. -/
theorem Attached.onLive_before (h : Attached options s) (hconsistent : Consistent s)
    {event : Event α} (hsteps : Steps options drainTimeout s event t)
    (htag : tag ∈ s.pipeline.deliveries) (hlive : t.onLive tag) : s.onLive tag := by
  obtain ⟨d, hd⟩ := OrderedMap.mem_iff.mp htag
  obtain ⟨X, c, -, hc, -⟩ := h.delivery hconsistent hd
  suffices hsuffices : s.manager.live d.channel from
    (Option.any_eq_true _ _).mpr ⟨d, hd, hsuffices⟩
  obtain ⟨d', hd', hlive⟩ := (Option.any_eq_true _ _).mp hlive
  cases hsteps with
  | @manager event manager hdue hs =>
    obtain ⟨hmanager, -, -, -, hdeliveries, -⟩ := managed_frame s options event manager
    rw [hdeliveries] at hd'
    cases hd.symm.trans hd'
    rw [hmanager] at hlive
    exact (ConsumerManager.step_cases hs).live_before hc hlive
  | deliver hk hmanager hpipeline =>
    obtain ⟨d₁, hd₁, e⟩ := (ConsumePipeline.step_cases hpipeline).evolves.delivery tag d hd
    cases hd'.symm.trans hd₁
    rw [e.channel] at hlive
    exact (ConsumerManager.step_cases hmanager).live_before hc hlive
  | @pipeline env event pipeline hown hquiet hs =>
    obtain ⟨hpipeline, -⟩ := piped_frame s event pipeline
    obtain ⟨hchannels, -⟩ := piped_manager s event pipeline
    obtain ⟨d₁, hd₁, e⟩ := (ConsumePipeline.step_cases hs).evolves.delivery tag d hd
    rw [hpipeline] at hd'
    cases hd'.symm.trans hd₁
    rw [e.channel, ConsumerManager.State.live, hchannels] at hlive
    exact hlive
  | tick =>
    cases hd.symm.trans hd'
    exact hlive

theorem Attached.not_onLive_after (h : Attached options s) (hconsistent : Consistent s)
    {event : Event α} (hsteps : Steps options drainTimeout s event t)
    (htag : tag ∈ s.pipeline.deliveries) (hlive : s.onLive tag = false) : t.onLive tag = false := by
  refine Bool.eq_false_iff.mpr fun hafter => ?_
  rw [h.onLive_before hconsistent hsteps htag hafter] at hlive
  cases hlive

/-- The delivery that a processor parks belongs to its subscription. -/
theorem Consistent.parked (h : Consistent s) (hparks : s.Parks id tag) :
    ∃ d, s.pipeline.deliveries.get? tag = some d ∧ d.subscription = id := by
  obtain ⟨p, hp, key, data, hget, rfl⟩ := hparks
  obtain ⟨d, hd, hid, -⟩ := ((ConsumePipeline.accounted h.pipeline).attributed.processor id p hp).parked
    key data hget
  exact ⟨d, hd, hid⟩

/-- Arranging a subscription touches no delivery. -/
theorem arranged_frame {p p' : ConsumePipeline.State α}
    (h : Reach ConsumePipeline.step Arranges p p') :
    p'.deliveries = p.deliveries ∧ p'.finished = p.finished ∧ p'.refused = p.refused := by
  induction h with
  | refl => exact ⟨rfl, rfl, rfl⟩
  | tail _ harranges hs ih =>
    obtain ⟨hdeliveries, hfinished, hrefused⟩ := ih
    rcases harranges with ⟨id, sub, heq⟩ | ⟨id, heq⟩
    · have hsteps := ConsumePipeline.step_cases hs
      rw [heq] at hsteps
      cases hsteps with
      | subscribe => exact ⟨hdeliveries, hfinished, hrefused⟩
    · have hsteps := ConsumePipeline.step_cases hs
      rw [heq] at hsteps
      cases hsteps with
      | processor hsub hp hsequential hlater hstep =>
        cases SequentialProcessor.step_cases hstep with
        | dispose => exact ⟨hdeliveries, hfinished, hrefused⟩

/-! ## The invariant -/

structure Sheltering (options : Nat → Options) (s : State α) : Prop where
  attached : Attached options s
  sole : ConsumerManager.Sole s.manager
  pipeline : Reach ConsumePipeline.step ConsumePipeline.Caught ConsumePipeline.start s.pipeline
  equipped : ConsumePipeline.Equipped s.pipeline
  refused : ∀ tag ∈ s.pipeline.refused, tag ∈ s.pipeline.deliveries ∧ s.onLive tag = false
  /-- A processor that was disposed of parks no delivery of an open channel. -/
  disposed : ∀ {id : Nat} {p : SequentialProcessor.State α},
    s.pipeline.processors.get? id = some p → p.disposed → ∀ tag, p.Parks tag →
    s.onLive tag = false
  kept : ∀ {tag : Nat} {d : ConsumePipeline.Delivery α} {sub : ConsumePipeline.Subscription},
    s.pipeline.lookup tag = some (d, sub) → sub.sequential.isSome →
    ConsumePipeline.Kept s.pipeline tag ∨ s.onLive tag = false

omit [ToString α] in
theorem dispose_parks (p : SequentialProcessor.State α) :
    ¬ (SequentialProcessor.dispose p).Parks tag := by
  rintro ⟨id, data, hget, -⟩
  cases hget

/-- What a processor parks when a step of the manager disposes of it came on a channel that is not
open after the step. -/
theorem Sheltering.discards (h : Sheltering options s) (hconsistent : Consistent s)
    {event : ConsumerManager.Event} {manager : ConsumerManager.State}
    (hok : Sheltered options s (.manager event))
    (hdue : s.due drainTimeout event) (hs : ConsumerManager.step s.manager event = some manager)
    (hcurrent : s.sequentialProcessor.get? consumer = some id)
    (hwhy : Discards s options event consumer) (hparks : s.Parks id tag) :
    (s.managed options event manager).onLive tag = false := by
  have hsteps := ConsumerManager.step_cases hs
  obtain ⟨hmanager, -, -, -, hdeliveries, -⟩ := managed_frame s options event manager
  obtain ⟨d, hd, hid⟩ := hconsistent.parked hparks
  obtain ⟨X, c, hX, hc, howner⟩ := h.attached.delivery hconsistent hd
  obtain ⟨hX', hsequential⟩ := h.attached.current hcurrent
  rw [hid] at hX
  cases hX.symm.trans hX'
  -- it is enough that the channel of the delivery is not open any more
  suffices hsuffices : ¬ manager.live d.channel by
    rw [State.onLive, hdeliveries, hd, hmanager]
    exact Bool.eq_false_iff.mpr hsuffices
  rcases hwhy with hmem | ⟨k, setup, channel, rfl, hcreates, hconsumer⟩
  · have hclosed : ∀ {c' : ConsumerManager.Channel}, manager.channels[d.channel]? = some c' →
        c'.life = .closed → ¬ manager.live d.channel := fun hc' hlife => ConsumerManager.not_live_of_closed hc' hlife
    cases hsteps with
    | @channelCloses j c' hj hlife =>
      simp only [Consuming.disposed, hj, Option.toList_some, List.filterMap_cons,
        List.filterMap_nil] at hmem
      have hwatched : watched c' = some consumer := by
        cases hwatched : watched c' with
        | none => simp [hwatched] at hmem
        | some Y => simpa [hwatched, eq_comm] using hmem
      have howner' : c'.owner = consumer := by
        unfold watched at hwatched
        split at hwatched
        · exact Option.some.inj hwatched
        · cases hwatched
      by_cases hlive : s.manager.live d.channel
      · -- the open channel of the consumer is the one that closes
        obtain ⟨c₁, hc₁, hlife₁⟩ := ConsumerManager.live_iff.mp hlive
        cases hc.symm.trans hc₁
        have hsame := h.sole.one hc hj (howner.trans howner'.symm) (by rw [hlife₁]; nofun) hlife
        rw [← hsame] at hj hclosed ⊢
        have hset : (s.manager.channelCloses d.channel c').channels[d.channel]? =
            some { c' with life := .closed } := by
          have hlt := (List.getElem?_eq_some_iff.mp hj).1
          rcases ConsumerManager.State.channelCloses_cases s.manager d.channel c' with
            heq | ⟨_, _, _, _, heq⟩ <;> simp [heq, hlt]
        exact ConsumerManager.not_live_of_closed hset rfl
      · exact fun hlive' => hlive ((ConsumerManager.step_cases hs).live_before hc hlive')
    | connectionLost =>
      have hset : (s.manager.connectionLost).channels[d.channel]? = some { c with life := .closed } := by
        simp [ConsumerManager.State.connectionLost, hc]
      exact hclosed hset rfl
    | @removeConsumer j drop workers hj hstage =>
      simp only [Consuming.disposed, hj, Option.toList_some, List.map_cons, List.map_nil,
        List.mem_singleton] at hmem
      cases workers with
      | true =>
        have hnone := hok.2.2 j rfl drop hj
        rw [← hmem] at hnone
        rw [hnone] at hsequential
        cases hsequential
      | false => exact h.sole.removed_not_live hc (howner.trans hmem)
    | disconnect => exact hok.1.elim
    | _ => cases hmem
  · intro hlive
    refine hok.2.1 k tag rfl ⟨setup, channel, id, hcreates, hconsumer ▸ hcurrent, hparks, ?_⟩
    refine h.attached.onLive_before hconsistent (.manager hdue hs) (OrderedMap.mem_of_get? hd) ?_
    rw [State.onLive, hdeliveries, hd, hmanager]
    exact hlive

theorem Arranges.caught {p : ConsumePipeline.State α}
    {input : ConsumePipeline.Env α × ConsumePipeline.Event α} (h : Arranges p input) :
    ConsumePipeline.Caught p input := by
  obtain ⟨env, event⟩ := input
  rcases h with ⟨id, sub, rfl⟩ | ⟨id, rfl⟩ <;> trivial

theorem Sheltering.managed (h : Sheltering options s) (hconsistent : Consistent s)
    {event : ConsumerManager.Event} {manager : ConsumerManager.State}
    (hok : Sheltered options s (.manager event)) (hdue : s.due drainTimeout event)
    (hs : ConsumerManager.step s.manager event = some manager) :
    Sheltering options (s.managed options event manager) := by
  have hsteps := ConsumerManager.step_cases hs
  have hstep : Steps options drainTimeout s (.manager event) (s.managed options event manager) :=
    .manager hdue hs
  obtain ⟨hmanager, -, -, -, hdeliveries, -⟩ := managed_frame s options event manager
  have hreach := (hconsistent.arranged options hsteps).1
  obtain ⟨-, hfinished, hrefused⟩ := arranged_frame hreach
  have hnot : ∀ {tag}, tag ∈ s.pipeline.deliveries → s.onLive tag = false →
      (s.managed options event manager).onLive tag = false :=
    h.attached.not_onLive_after hconsistent hstep
  refine ⟨h.attached.managed hconsistent hs, ?_, ?_, ?_, ?_, ?_, ?_⟩
  · rw [hmanager]
    exact h.sole.step (ConsumerManager.owned hconsistent.manager) hok.1 hsteps
  · exact h.pipeline.trans (hreach.mono fun _ _ => Arranges.caught)
  · exact hreach.invariant h.equipped fun h _ hs => (ConsumePipeline.step_cases hs).equipped h
  · intro tag htag
    rw [hrefused] at htag
    obtain ⟨hmem, hlive⟩ := h.refused tag htag
    exact ⟨hdeliveries ▸ hmem, hnot hmem hlive⟩
  · intro id p hp hdisposed tag hparks
    cases managed_processor s options event manager id with
    | kept hget =>
      rw [hget] at hp
      obtain ⟨d, hd, -⟩ := hconsistent.parked ⟨p, hp, hparks⟩
      exact hnot (OrderedMap.mem_of_get? hd) (h.disposed hp hdisposed tag hparks)
    | discarded _ _ _ hget =>
      cases hp.symm.trans hget
      exact absurd hparks (dispose_parks _)
    | created _ _ hget =>
      cases hp.symm.trans hget
      cases hdisposed
  · intro tag d sub hl hsequential
    have htag : tag ∈ s.pipeline.deliveries := by
      rw [← hdeliveries]
      exact OrderedMap.mem_of_get? (ConsumePipeline.lookup_eq_some.mp hl).1
    obtain ⟨d₀, hl₀⟩ := ConsumePipeline.lookup_before
      (ConsumePipeline.accounted hconsistent.pipeline).attributed
      (ConsumePipeline.evolves_of_reach hreach) hl htag
    have hplace : (s.managed options event manager).pipeline.place? tag = s.pipeline.place? tag := by
      rw [ConsumePipeline.State.place?, hdeliveries]
      rfl
    rcases h.kept hl₀ hsequential with hkept | hlive
    · cases hkept with
      | decoding hdecoding => exact .inl (.decoding (hplace.trans hdecoding))
      | finished hmem => exact .inl (.finished (hfinished ▸ hmem))
      | held hheld =>
        obtain ⟨id, p, hid, hp, hretains⟩ := hheld
        have hid' : (s.managed options event manager).pipeline.subscriptionOf tag = some id := by
          rw [ConsumePipeline.State.subscriptionOf, hplace]
          exact hid
        cases managed_processor s options event manager id with
        | kept hget => exact .inl (.held ⟨id, p, hid', hget.trans hp, hretains⟩)
        | discarded hcurrent hwhy hp' hget =>
          cases hp.symm.trans hp'
          rcases hretains with hparks | hruns
          · exact .inr (h.discards hconsistent hok hdue hs hcurrent hwhy ⟨p, hp, hparks⟩)
          · exact .inl (.held ⟨id, _, hid', hget, .inr hruns⟩)
        | created _ hcreates _ =>
          -- a setup that goes on has no processor yet
          obtain ⟨sub', hsub', -⟩ :=
            (ConsumePipeline.running hconsistent.pipeline).sequential id p hp
          obtain ⟨setup', hk', hstarted⟩ := hconsistent.subscriptions hsub'
          cases hk'.symm.trans hcreates.get
          rw [hcreates.opened] at hstarted
          cases hstarted
    · exact .inr (hnot htag hlive)

theorem Sheltering.deliver (h : Sheltering options s) (hconsistent : Consistent s)
    {env : ConsumePipeline.Env α} {i : Nat} {message : Message α} {manager : ConsumerManager.State}
    {pipeline : ConsumePipeline.State α} (hk : s.consumeSetups[i]? = some k)
    (hmanager : ConsumerManager.step s.manager (.delivered i) = some manager)
    (hpipeline : ConsumePipeline.step s.pipeline (env, .deliver k message) = some pipeline) :
    Sheltering options { s with manager, pipeline } := by
  have hsteps := ConsumePipeline.step_cases hpipeline
  have hmsteps := ConsumerManager.step_cases hmanager
  have hcaught : ConsumePipeline.Caught s.pipeline (env, .deliver k message) := trivial
  have hopens : ConsumerManager.OpensAlone s.manager (.delivered i) := trivial
  have hstep : Steps options 0 s (.deliver env i message) { s with manager, pipeline } :=
    .deliver hk hmanager hpipeline
  have hnot : ∀ {tag}, tag ∈ s.pipeline.deliveries → s.onLive tag = false →
      State.onLive { s with manager, pipeline } tag = false :=
    h.attached.not_onLive_after hconsistent hstep
  have haccounted := ConsumePipeline.accounted hconsistent.pipeline
  have hchannels : manager.channels = s.manager.channels ∧ manager.setups = s.manager.setups := by
    cases hmsteps with
    | delivered => exact ⟨rfl, rfl⟩
  cases hsteps with
  | @deliver _ sub message hsub hfresh =>
    refine ⟨h.attached.congr rfl rfl hchannels.1 hchannels.2, ?_, h.pipeline.tail hcaught hpipeline,
      h.equipped, ?_, ?_, ?_⟩
    · exact h.sole.step (ConsumerManager.owned hconsistent.manager) hopens hmsteps
    · intro tag htag
      obtain ⟨hmem, hlive⟩ := h.refused tag htag
      exact ⟨OrderedMap.mem_set.mpr (.inr hmem), hnot hmem hlive⟩
    · intro id p hp hdisposed tag hparks
      obtain ⟨d, hd, -⟩ := hconsistent.parked ⟨p, hp, hparks⟩
      exact hnot (OrderedMap.mem_of_get? hd) (h.disposed hp hdisposed tag hparks)
    · intro tag d sub' hl hsequential
      rcases OrderedMap.mem_set.mp (OrderedMap.mem_of_get?
        (ConsumePipeline.lookup_eq_some.mp hl).1) with rfl | htag
      · refine .inl (.decoding (?_ : ConsumePipeline.State.place? _ _ = some (k, _)))
        rw [ConsumePipeline.place?_set, if_pos rfl]
      · obtain ⟨d₀, hl₀⟩ := ConsumePipeline.lookup_before haccounted.attributed
          (ConsumePipeline.step_cases hpipeline).evolves hl htag
        rcases h.kept hl₀ hsequential with hkept | hlive
        · exact .inl ((ConsumePipeline.step_cases hpipeline).kept
            (ConsumePipeline.running hconsistent.pipeline) h.equipped
            (fun tag d hd => (haccounted.attributed.delivery tag d hd).1) nofun hl₀ hsequential hkept)
        · exact .inr (hnot htag hlive)

theorem Sheltering.pipe (h : Sheltering options s) (hconsistent : Consistent s)
    {env : ConsumePipeline.Env α} {event : ConsumePipeline.Event α}
    {pipeline : ConsumePipeline.State α} (hok : Sheltered options s (.pipeline env event))
    (hown : fromManager event = false) (hquiet : s.manager.recreating = [])
    (hs : ConsumePipeline.step s.pipeline (env, event) = some pipeline) :
    Sheltering options (s.piped event pipeline) := by
  obtain ⟨hcaught, hrefuses, hstrays⟩ := hok
  have hsteps := ConsumePipeline.step_cases hs
  have hstep : Steps options 0 s (.pipeline env event) (s.piped event pipeline) :=
    .pipeline hown hquiet hs
  have hnot : ∀ {tag}, tag ∈ s.pipeline.deliveries → s.onLive tag = false →
      (s.piped event pipeline).onLive tag = false :=
    h.attached.not_onLive_after hconsistent hstep
  have haccounted := ConsumePipeline.accounted hconsistent.pipeline
  have hdeliver : ∀ id message, event ≠ .deliver id message := by
    rintro id message rfl
    cases hown
  have hsubscribe : ∀ id sub, event ≠ .subscribe id sub := by
    rintro id sub rfl
    cases hown
  have hlive : ∀ id, event ≠ .processor id .dispose := by
    rintro id rfl
    cases hown
  obtain ⟨hpipeline, -, -, -, hcurrents, -⟩ := piped_frame s event pipeline
  obtain ⟨hchannels, hpool, hdedicated, hsetups⟩ := piped_manager s event pipeline
  refine ⟨?_, ?_, ?_, ?_, ?_, ?_, ?_⟩
  · refine h.attached.congr ?_ hcurrents hchannels hsetups
    rw [hpipeline]
    exact hsteps.subscriptions hsubscribe
  · exact h.sole.congr hchannels hpool hdedicated
  · rw [hpipeline]
    exact h.pipeline.tail hcaught hs
  · rw [hpipeline]
    exact hsteps.equipped h.equipped
  · intro tag htag
    rw [hpipeline] at htag ⊢
    rcases (hsteps.refuses hdeliver).refused tag htag with htag | ⟨hmem, action, hrefused⟩
    · obtain ⟨hmem, hlive⟩ := h.refused tag htag
      exact ⟨hsteps.evolves.known hmem, hnot hmem hlive⟩
    · exact ⟨hsteps.evolves.known hmem, hnot hmem (hrefuses tag action hrefused)⟩
  · intro id p hp hdisposed tag hparks
    rw [hpipeline] at hp
    have hbefore : ∀ {p₀ : SequentialProcessor.State α}, s.pipeline.processors.get? id = some p₀ →
        p₀.disposed → p₀.Parks tag → (s.piped event pipeline).onLive tag = false := by
      intro p₀ hp₀ hdisposed₀ hparks₀
      obtain ⟨d, hd, -⟩ := hconsistent.parked ⟨p₀, hp₀, hparks₀⟩
      exact hnot (OrderedMap.mem_of_get? hd) (h.disposed hp₀ hdisposed₀ tag hparks₀)
    cases hsteps.processors with
    | kept hprocessors => exact hbefore (hprocessors ▸ hp) hdisposed hparks
    | starts => exact absurd rfl (hsubscribe _ _)
    | @takes tag' d sub p₀ r hd hstage hp₀ hr hprocessors =>
      rw [hprocessors, OrderedMap.get?_set] at hp
      split at hp
      · next heq =>
        subst heq
        cases hp
        rw [hr] at hdisposed hparks
        rw [SequentialProcessor.deliver_disposed] at hdisposed
        rcases SequentialProcessor.deliver_parks hparks with hparks | ⟨hmessage, hid, hunresolved⟩
        · exact hbefore hp₀ hdisposed hparks
        · -- the delivery that is decoded would stray
          obtain ⟨hget, -⟩ := ConsumePipeline.lookup_eq_some.mp hd
          have htag := (haccounted.attributed.delivery tag' d hget).1
          rw [← hmessage, htag]
          refine hnot (OrderedMap.mem_of_get? hget) (Bool.eq_false_iff.mpr fun honLive => ?_)
          exact hstrays tag' rfl ⟨d, p₀, hget, hp₀, hdisposed, hid, hunresolved, honLive⟩
      · exact hbefore hp hdisposed hparks
    | @moves i sub p₀ c event r hp₀ hlater hmoves hprocessors =>
      rw [hprocessors, OrderedMap.get?_set] at hp
      split at hp
      · next heq =>
        subst heq
        cases hp
        have hdispose : event ≠ .dispose := by
          rintro rfl
          exact hlive _ rfl
        rw [hmoves.disposed hlater hdispose] at hdisposed
        exact hbefore hp₀ hdisposed (hmoves.parks hlater hparks)
      · exact hbefore hp hdisposed hparks
  · intro tag d sub hl hsequential
    rw [hpipeline] at hl ⊢
    have htag : tag ∈ s.pipeline.deliveries := (hsteps.refuses hdeliver).known tag
      (OrderedMap.mem_of_get? (ConsumePipeline.lookup_eq_some.mp hl).1)
    obtain ⟨d₀, hl₀⟩ := ConsumePipeline.lookup_before haccounted.attributed hsteps.evolves hl htag
    rcases h.kept hl₀ hsequential with hkept | hnotLive
    · exact .inl (hsteps.kept (ConsumePipeline.running hconsistent.pipeline) h.equipped
        (fun tag d hd => (haccounted.attributed.delivery tag d hd).1) hlive hl₀ hsequential hkept)
    · exact .inr (hnot htag hnotLive)

end Consuming
end RabbitMQ

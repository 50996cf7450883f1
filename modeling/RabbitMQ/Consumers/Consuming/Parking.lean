import RabbitMQ.Consumers.Consuming.Sheltering

/-! A delivery of a sequential consumer is settled, runs, is parked in a processor whose sweep is
armed, or came on a channel that is no longer open. -/

namespace RabbitMQ
namespace Consuming

open Transition

variable {α : Type} [DecidableEq α] [ToString α] {s t : State α} {options : Nat → Options}
  {drainTimeout tag id : Nat}

theorem sheltering_start : Sheltering options (start : State α) where
  attached := attached_start
  sole := ConsumerManager.sole_start
  pipeline := .refl
  equipped := ConsumePipeline.equipped_start
  refused _ htag := by cases htag
  disposed hp := by cases hp
  kept hl := by cases hl

theorem Sheltering.step (h : Sheltering options s) (hconsistent : Consistent s) {event : Event α}
    (hok : Sheltered options s event) (hsteps : Steps options drainTimeout s event t) :
    Sheltering options t := by
  cases hsteps with
  | manager hdue hs => exact h.managed hconsistent hok hdue hs
  | deliver hk hmanager hpipeline => exact h.deliver hconsistent hk hmanager hpipeline
  | pipeline hown hquiet hs => exact h.pipe hconsistent hok hown hquiet hs
  | tick =>
    exact ⟨h.attached.congr rfl rfl rfl rfl, h.sole, h.pipeline, h.equipped, h.refused, h.disposed,
      h.kept⟩

theorem sheltering (hr : Reach (step options drainTimeout) (Sheltered options) start s) :
    Sheltering options s :=
  hr.invariant_of consistent sheltering_start fun hconsistent _ h hok hs =>
    h.step hconsistent hok (step_cases hs)

/-- The step disposes of the processor. -/
structure Disposes (s t : State α) (id : Nat) (p : SequentialProcessor.State α) : Prop where
  before : s.pipeline.processors.get? id = some p
  armed : p.disposed = false
  after : ∃ p', t.pipeline.processors.get? id = some p' ∧ p'.disposed

/-- A processor that is disposed of parks what came on channels that are not open by then. -/
theorem Sheltering.disposes (h : Sheltering options s) (hconsistent : Consistent s)
    {event : Event α} (hok : Sheltered options s event)
    (hsteps : Steps options drainTimeout s event t) {p : SequentialProcessor.State α}
    (hdisposes : Disposes s t id p) (hparks : p.Parks tag) : t.onLive tag = false := by
  obtain ⟨hp, harmed, p', hp', hdisposed⟩ := hdisposes
  have hsame : p' = p → t.onLive tag = false := by
    rintro rfl
    cases harmed.symm.trans hdisposed
  cases hsteps with
  | @manager event manager hdue hs =>
    cases managed_processor s options event manager id with
    | kept hget => exact hsame (Option.some.inj (hp'.symm.trans (hget.trans hp)))
    | discarded hcurrent hwhy _ _ =>
      exact h.discards hconsistent hok hdue hs hcurrent hwhy ⟨p, hp, hparks⟩
    | created _ _ hget =>
      cases hget.symm.trans hp'
      cases hdisposed
  | deliver hk hmanager hpipeline =>
    cases ConsumePipeline.step_cases hpipeline with
    | deliver => exact hsame (Option.some.inj (hp'.symm.trans hp))
  | @pipeline env event pipeline hown hquiet hs =>
    obtain ⟨hpipeline, -⟩ := piped_frame s event pipeline
    rw [hpipeline] at hp'
    cases (ConsumePipeline.step_cases hs).processors with
    | kept hprocessors => exact hsame (Option.some.inj (hp'.symm.trans (hprocessors ▸ hp)))
    | starts => cases hown
    | takes _ _ hp₀ hr hprocessors =>
      rw [hprocessors, OrderedMap.get?_set] at hp'
      split at hp'
      · next heq =>
        subst heq
        cases hp₀.symm.trans hp
        cases hp'
        rw [hr, SequentialProcessor.deliver_disposed, harmed] at hdisposed
        cases hdisposed
      · exact hsame (Option.some.inj (hp'.symm.trans hp))
    | @moves _ _ _ _ event' _ hp₀ hlater hmoves hprocessors =>
      rw [hprocessors, OrderedMap.get?_set] at hp'
      split at hp'
      · next heq =>
        subst heq
        cases hp₀.symm.trans hp
        cases hp'
        have hdispose : event' ≠ .dispose := by
          rintro rfl
          cases hown
        rw [hmoves.disposed hlater hdispose, harmed] at hdisposed
        cases hdisposed
      · exact hsame (Option.some.inj (hp'.symm.trans hp))
  | tick => exact hsame (Option.some.inj (hp'.symm.trans hp))

/-- Where a delivery is. -/
inductive Tracked (s : State α) (tag : Nat) (d : ConsumePipeline.Delivery α)
    (sub : ConsumePipeline.Subscription) : Prop
  | settledOnce (hone : (s.pipeline.settlementsOf tag).length = 1)
  /-- its content is being decoded -/
  | decoding (hstage : d.stage = .decoding)
  | running {p : SequentialProcessor.State α}
      (hp : s.pipeline.processors.get? d.subscription = some p) (hruns : p.Runs tag)
  /-- the `catch` block is about to settle it -/
  | failing (hstage : d.stage.Failing sub d.message)
  | parked {p : SequentialProcessor.State α}
      (hp : s.pipeline.processors.get? d.subscription = some p) (harmed : p.disposed = false)
      (hparks : p.Parks tag)
  | closed (hlive : s.onLive tag = false)

theorem Sheltering.tracked (h : Sheltering options s) {d : ConsumePipeline.Delivery α}
    {sub : ConsumePipeline.Subscription} (hl : s.pipeline.lookup tag = some (d, sub))
    (hsequential : sub.sequential.isSome) (hnoAck : sub.noAck = false) : Tracked s tag d sub := by
  have hcount := (ConsumePipeline.accounted h.pipeline).counted.count tag
  have hplace := ConsumePipeline.place?_of_get? (ConsumePipeline.lookup_eq_some.mp hl).1
  rcases h.kept hl hsequential with hkept | hlive
  · cases hkept with
    | decoding hdecoding =>
      rw [hplace] at hdecoding
      exact .decoding (Prod.mk.inj (Option.some.inj hdecoding)).2
    | finished hfinished =>
      rcases ConsumePipeline.closed h.pipeline tag hfinished d sub hl hnoAck with
        (hsettled | hrefused) | hfailing
      · refine .settledOnce ?_
        rw [hcount, hsettled]
        rfl
      · exact .closed (h.refused tag hrefused).2
      · exact .failing hfailing
    | held hheld =>
      obtain ⟨id, p, hid, hp, hretains⟩ := hheld
      rw [ConsumePipeline.subscriptionOf_of_lookup hl] at hid
      cases hid
      rcases hretains with hparks | hruns
      · cases hdisposed : p.disposed with
        | false => exact .parked hp hdisposed hparks
        | true => exact .closed (h.disposed hp hdisposed tag hparks)
      · exact .running hp hruns
  · exact .closed hlive

/-- Under the condition, a processor that is disposed of parks deliveries of closed channels only,
and no delivery of a sequential consumer is left unsettled and untracked on an open channel. -/
theorem no_delivery_stranded
    (hr : Reach (step options drainTimeout) (Sheltered options) start s) :
    (∀ {event t id p}, Sheltered options s event →
      Consuming.step options drainTimeout s event = some t → Disposes s t id p →
      ∀ tag, p.Parks tag → t.onLive tag = false) ∧
    ∀ {tag d sub}, s.pipeline.lookup tag = some (d, sub) → sub.sequential.isSome →
      sub.noAck = false → Tracked s tag d sub := by
  have h := sheltering hr
  refine ⟨fun hok hs hdisposes tag hparks => ?_, fun hl hsequential hnoAck => ?_⟩
  · exact h.disposes (consistent hr) hok (step_cases hs) hdisposes hparks
  · exact h.tracked hl hsequential hnoAck

/-- A sequential consumer has one delivery at its handler and another parked behind it. -/
private def parking : List (Event String) :=
  [.poolInstalled, .recreateAll, .recreated, .subscribe false, .channelOpened 0,
    .setupContinues 0, .prefetched 0, .consumeOk 0 7, .setupCompletes 0].map .manager ++
  [.deliver quietEnv 0 { tag := 1, messageId := some "order" },
    .deliver quietEnv 0 { tag := 2, messageId := some "item", dependsOn := some "order" },
    .pipeline quietEnv (.decoded 1), .pipeline quietEnv (.decoded 2)]

private abbrev sequentially : Nat → Options := fun _ => ⟨.once, some 30000⟩

/-- A setup goes on for a consumer that has no processor yet. -/
private def first (s : State String) : Event String → Bool
  | .manager (.setupContinues k) => s.manager.setups[k]?.all fun setup =>
    (s.sequentialProcessor.get? setup.consumer).isNone
  | .manager (.removeConsumer _ _) => false
  | .manager event => ConsumerManager.OpensAlone s.manager event
  | .pipeline _ (.decoded tag) => (s.pipeline.deliveries.get? tag).all fun d =>
    (s.pipeline.processors.get? d.subscription).all fun p => !p.disposed
  | _ => true

private theorem sheltered_of_first {s : State String} {event : ConsumerManager.Event}
    (h : first s (.manager event)) : Sheltered sequentially s (.manager event) := by
  cases event with
  | setupContinues k =>
    refine ⟨trivial, fun k' tag heq hreplaces => ?_, fun d heq => nomatch heq⟩
    cases heq
    obtain ⟨setup, channel, id, hcreates, hcurrent, -⟩ := hreplaces
    have hnone := (Option.all_eq_true _ _).mp h setup hcreates.get
    rw [hcurrent] at hnone
    cases hnone
  | removeConsumer => cases h
  | _ => exact ⟨of_decide_eq_true h, fun _ _ heq => (nomatch heq), fun _ heq => nomatch heq⟩

private theorem sheltered_decoded {s : State String} (h : first s (.pipeline quietEnv (.decoded tag))) :
    Sheltered sequentially s (.pipeline quietEnv (.decoded tag)) := by
  refine ⟨trivial, fun _ _ heq => (nomatch heq), fun tag' heq hstrays => ?_⟩
  cases heq
  obtain ⟨d, p, hd, hp, hdisposed, -⟩ := hstrays
  have harmed := (Option.all_eq_true _ _).mp ((Option.all_eq_true _ _).mp h d hd) p hp
  rw [hdisposed] at harmed
  cases harmed

private theorem sheltered_parking : ∀ e ∈ parking, ∀ s, first s e → Sheltered sequentially s e := by
  intro e he s h
  rcases List.mem_append.mp he with he | he
  · obtain ⟨event, -, rfl⟩ := List.mem_map.mp he
    exact sheltered_of_first h
  · simp only [List.mem_cons, List.not_mem_nil, or_false] at he
    rcases he with rfl | rfl | rfl | rfl
    · trivial
    · trivial
    · exact sheltered_decoded h
    · exact sheltered_decoded h

/-- The channel closes under the parked delivery, which its processor lets go. -/
theorem no_delivery_stranded_run : ∃ (s t : State String) (p : SequentialProcessor.State String)
    (d : ConsumePipeline.Delivery String) (sub : ConsumePipeline.Subscription),
    Tracked s 2 d sub ∧ p.Parks 2 ∧ Disposes s t 0 p ∧ t.onLive 2 = false := by
  have hrun : (run (Consuming.step sequentially 30000) (fun s e => first s e) start parking).any
      fun s => (s.pipeline.lookup 2).any fun (_, sub) =>
        decide (sub.sequential.isSome ∧ sub.noAck = false) &&
        (s.pipeline.processors.get? 0).any fun p => decide (p.disposed = false) &&
          ((p.pending.get? "item").any fun data => decide (data.message.tag = 2)) &&
          (Consuming.step sequentially 30000 s (.manager (.channelCloses 0))).any fun t =>
            (t.pipeline.processors.get? 0).any (·.disposed) := by
    decide +kernel
  obtain ⟨s, hs, h⟩ := (Option.any_eq_true _ _).mp hrun
  obtain ⟨⟨d, sub⟩, hl, h⟩ := (Option.any_eq_true _ _).mp h
  obtain ⟨hsub, h⟩ := Bool.and_eq_true_iff.mp h
  obtain ⟨p, hp, h⟩ := (Option.any_eq_true _ _).mp h
  obtain ⟨hbefore, h⟩ := Bool.and_eq_true_iff.mp h
  obtain ⟨harmed, hparked⟩ := Bool.and_eq_true_iff.mp hbefore
  obtain ⟨data, hdata, htag⟩ := (Option.any_eq_true _ _).mp hparked
  obtain ⟨t, ht, h⟩ := (Option.any_eq_true _ _).mp h
  have hparks : p.Parks 2 := ⟨"item", data, hdata, of_decide_eq_true htag⟩
  have hdisposes : Disposes s t 0 p :=
    ⟨hp, of_decide_eq_true harmed, (Option.any_eq_true _ _).mp h⟩
  obtain ⟨hsequential, hnoAck⟩ := of_decide_eq_true hsub
  have hr := reach_of_run_of_imp sheltered_parking hs
  have hcloses : Sheltered sequentially s (.manager (.channelCloses 0)) :=
    sheltered_of_first rfl
  exact ⟨s, t, p, d, sub, (no_delivery_stranded hr).2 hl hsequential hnoAck, hparks, hdisposes,
    (no_delivery_stranded hr).1 hcloses ht hdisposes 2 hparks⟩

/-- The broker cancels the consumer, and the recovery finds its channel still open: the processor is
replaced, and the parked delivery belongs to nobody. -/
theorem delivery_stranded_by_recovery : ∃ (s t : State String)
    (p : SequentialProcessor.State String) (d : ConsumePipeline.Delivery String)
    (sub : ConsumePipeline.Subscription),
    Reach (Consuming.step sequentially 30000) anyStep start s ∧
    Consuming.step sequentially 30000 s (.manager (.setupContinues 1)) = some t ∧
    (Disposes s t 0 p ∧ p.Parks 2 ∧ t.onLive 2) ∧
    t.pipeline.lookup 2 = some (d, sub) ∧ sub.sequential.isSome ∧ sub.noAck = false ∧
    ¬ Tracked t 2 d sub := by
  have hrun : (run (Consuming.step sequentially 30000) anyStep start
      (parking ++ [.manager (.brokerCancels 0), .manager (.loopWakes 0)])).any fun s =>
        (s.pipeline.processors.get? 0).any fun p => decide (p.disposed = false) &&
          ((p.pending.get? "item").any fun data => decide (data.message.tag = 2)) &&
          (Consuming.step sequentially 30000 s (.manager (.setupContinues 1))).any fun t =>
            t.onLive 2 && decide ((t.pipeline.settlementsOf 2).length = 0) &&
            (t.pipeline.processors.get? 0).any (fun p' => p'.disposed &&
              decide (p'.calls.count (fun _ stack => SequentialProcessor.topRuns 2 stack) = 0)) &&
            (t.pipeline.lookup 2).any fun (d, sub) => decide (d.subscription = 0 ∧
              d.stage.inside = false ∧ sub.sequential.isSome ∧ sub.noAck = false) := by
    decide +kernel
  obtain ⟨s, hs, h⟩ := (Option.any_eq_true _ _).mp hrun
  obtain ⟨p, hp, h⟩ := (Option.any_eq_true _ _).mp h
  obtain ⟨hbefore, h⟩ := Bool.and_eq_true_iff.mp h
  obtain ⟨harmed, hparked⟩ := Bool.and_eq_true_iff.mp hbefore
  obtain ⟨data, hdata, htag⟩ := (Option.any_eq_true _ _).mp hparked
  obtain ⟨t, ht, h⟩ := (Option.any_eq_true _ _).mp h
  obtain ⟨hafter, hdelivery⟩ := Bool.and_eq_true_iff.mp h
  obtain ⟨hafter, hprocessor⟩ := Bool.and_eq_true_iff.mp hafter
  obtain ⟨hlive, hnone⟩ := Bool.and_eq_true_iff.mp hafter
  obtain ⟨p', hp', h'⟩ := (Option.any_eq_true _ _).mp hprocessor
  obtain ⟨hdisposed, hcalls⟩ := Bool.and_eq_true_iff.mp h'
  obtain ⟨⟨d, sub⟩, hl, hd⟩ := (Option.any_eq_true _ _).mp hdelivery
  obtain ⟨hzero, hstage, hsequential, hnoAck⟩ := of_decide_eq_true hd
  refine ⟨s, t, p, d, sub, reach_of_run hs, ht, ⟨⟨hp, of_decide_eq_true harmed, p', hp', hdisposed⟩,
    ⟨"item", data, hdata, of_decide_eq_true htag⟩, hlive⟩, hl, hsequential, hnoAck, fun h => ?_⟩
  have hsame : ∀ {q}, t.pipeline.processors.get? d.subscription = some q → q = p' := by
    intro q hq
    rw [hzero] at hq
    exact Option.some.inj (hq.symm.trans hp')
  cases h with
  | settledOnce hone =>
    rw [of_decide_eq_true hnone] at hone
    cases hone
  | decoding hdecoding =>
    rw [hdecoding] at hstage
    cases hstage
  | running hq hruns =>
    obtain ⟨root, stack, hget, htop⟩ := hruns
    rw [hsame hq] at hget
    rw [OrderedMap.count_eq_zero_iff.mp (of_decide_eq_true hcalls) root stack hget] at htop
    cases htop
  | failing hfailing =>
    obtain ⟨decoded, error, hrejected, -⟩ := hfailing
    rw [hrejected] at hstage
    cases hstage
  | parked hq harmed =>
    rw [hsame hq, hdisposed] at harmed
    cases harmed
  | closed hclosed =>
    rw [hlive] at hclosed
    cases hclosed

end Consuming
end RabbitMQ

import RabbitMQ.Consumers.ConsumePipeline.Settlement
import RabbitMQ.Consumers.RetryPolicy.Redelivery

/-! What `messageFailed` says about requeueing.

The event carries what the policy wished, and the nack before it may have had no effect: the delivery
can be settled already, and the channel can refuse. -/

namespace RabbitMQ
namespace ConsumePipeline

open Transition

variable {α : Type} {s t : State α} {env : Env α} {sub : Subscription} {d : Delivery α}
  {tag id : Nat} {requeue : Bool}

/-- A nack with requeue was sent for the delivery. -/
def State.requeueSent (s : State α) (tag : Nat) : Bool :=
  s.settlements.any fun f => f.tag = tag ∧ f.action = .nack true

/-- A `messageFailed`, with what had been sent for its delivery by then. -/
structure Report where
  tag : Nat
  requeued : Bool
  sent : Bool
  deriving DecidableEq

def Report.Truthful (report : Report) : Prop := report.requeued = report.sent

/-- A delivery whose failure is about to be settled and reported. -/
structure Failed (α : Type) where
  before : State α
  sub : Subscription
  tag : Nat
  requeue : Bool

/-- `settleAck` and `events.failed` -/
def Failed.report (env : Env α) (f : Failed α) : Report where
  tag := f.tag
  requeued := if f.sub.noAck then false else f.requeue
  sent := (f.before.settleAck env f.sub f.tag (.nack f.requeue)).requeueSent f.tag

/-- The nack agrees with what was sent before it, or nothing was and the channel takes it. -/
def Failed.Settles (env : Env α) (f : Failed α) : Prop :=
  if f.before.settled f.tag then
    f.before.requeueSent f.tag = if f.sub.noAck then false else f.requeue
  else f.sub.noAck ∨ f.requeue = false ∨ env.refuses f.tag (.nack f.requeue) = false

instance (env : Env α) (f : Failed α) : Decidable (f.Settles env) :=
  inferInstanceAs (Decidable (ite _ _ _))

/-- The calls of `onFailure` among the calls that a processor makes of its options. -/
def failedOutputs (env : Env α) (sub : Subscription) :
    State α → List (SequentialProcessor.Output α) → List (Failed α)
  | _, [] => []
  | s, .onFailure message error requeue info :: out =>
    ⟨s, sub, message.tag, requeue⟩ ::
      failedOutputs env sub (State.report env sub s (.onFailure message error requeue info)) out
  | s, o :: out => failedOutputs env sub (State.report env sub s o) out

variable [DecidableEq α] [ToString α]

/-- The failures that a step reports. -/
def State.failures (s : State α) (env : Env α) : Event α → List (Failed α)
  | .caught tag =>
    match s.lookup tag with
    | some (⟨_, _, message, _, .rejected _ error⟩, sub) =>
      (requeueOf message error sub.retryPolicy).toList.map fun requeue =>
        ⟨s, sub, message.tag, requeue⟩
    | _ => []
  | .processor id event =>
    match s.subscriptions.get? id, s.processors.get? id with
    | some sub, some p =>
      ((sub.sequential.bind fun staleTimeout =>
        SequentialProcessor.step (config staleTimeout) p (hooks env sub event, event)).map fun r =>
          failedOutputs env sub { s with processors := s.processors.set id r.1 } r.2).getD []
    | _, _ => []
  -- a processor that is handed a delivery reports no failure before it suspends
  | _ => []

def reportingStep (s : State α) (input : Env α × Event α) : Option (State α × List Report) :=
  (step s input).map fun t => (t, (s.failures input.1 input.2).map (·.report input.1))

/-- Every failure of the step settles as it is reported. -/
def Settling (s : State α) (input : Env α × Event α) : Prop :=
  ∀ f ∈ s.failures input.1 input.2, f.Settles input.1

instance (s : State α) (input : Env α × Event α) : Decidable (Settling s input) :=
  inferInstanceAs (Decidable (∀ f ∈ s.failures input.1 input.2, f.Settles input.1))

omit [DecidableEq α] [ToString α] in
/-- A delivery without a settlement has no nack. -/
theorem Counted.requeueSent (h : Counted s) (hsettled : s.settled tag = false) :
    s.requeueSent tag = false := by
  have hnone := h.count tag
  rw [hsettled, Bool.toNat_false, List.length_eq_zero_iff] at hnone
  refine Bool.eq_false_iff.mpr fun hsent => ?_
  obtain ⟨f, hf, hmatch⟩ := List.any_eq_true.mp hsent
  have hmem : f ∈ s.settlementsOf tag :=
    List.mem_filter.mpr ⟨hf, decide_eq_true (of_decide_eq_true hmatch).1⟩
  rw [hnone] at hmem
  cases hmem

omit [DecidableEq α] [ToString α] in
/-- What the nack of a failure leaves. -/
theorem Counted.requeueSent_settle (h : Counted s) {channel : Nat}
    (hd : s.deliveries.get? tag = some d) :
    (s.settle env channel tag (.nack requeue) .pipeline).requeueSent tag =
      if d.ackSettled then s.requeueSent tag
      else !env.refuses tag (.nack requeue) && requeue := by
  have hsettled : s.settled tag = d.ackSettled := by rw [State.settled, hd, Option.any_some]
  unfold State.settle
  simp only [hd]
  split
  · rfl
  · next hopen =>
    have hnone := h.requeueSent (hsettled.trans (Bool.eq_false_iff.mpr hopen))
    cases hrefuses : env.refuses tag (.nack requeue) with
    | true =>
      rw [if_pos rfl]
      exact hnone
    | false =>
      rw [if_neg Bool.false_ne_true]
      have happend : State.requeueSent { s with
          deliveries := s.deliveries.set tag { d with ackSettled := true }
          settlements := s.settlements ++ [⟨channel, tag, .nack requeue, .pipeline⟩] } tag =
          (s.requeueSent tag || decide (tag = tag ∧ Action.nack requeue = .nack true)) := by
        simp only [State.requeueSent, List.any_append, List.any_cons, List.any_nil, Bool.or_false]
      rw [happend, hnone]
      cases requeue <;> simp

omit [ToString α] in
/-- A report is truthful exactly when its failure settles as it says. -/
theorem Failed.truthful_iff {f : Failed α} (ha : Accounted f.before)
    (hl : f.before.lookup f.tag = some (d, f.sub)) :
    (f.report env).Truthful ↔ f.Settles env := by
  have hd := (lookup_eq_some.mp hl).1
  have hsettled : f.before.settled f.tag = d.ackSettled := by
    rw [State.settled, hd, Option.any_some]
  rw [Report.Truthful, Failed.report, Failed.Settles, State.settleAck, hsettled]
  cases hnoAck : f.sub.noAck with
  | true =>
    simp only [if_true, true_or]
    cases hopen : d.ackSettled with
    | true => exact eq_comm
    | false =>
      rw [ha.counted.requeueSent (hsettled.trans hopen)]
      exact ⟨fun _ => trivial, fun _ => rfl⟩
  | false =>
    simp only [Bool.false_eq_true, if_false, false_or]
    rw [ha.counted.requeueSent_settle hd]
    cases d.ackSettled with
    | true => exact eq_comm
    | false => cases f.requeue <;> simp

/-! ## Steps -/

omit [ToString α] in
/-- By induction on the outputs: the failures of a processor are of deliveries that it was handed. -/
theorem failedOutputs_known (ha : Accounted s) (hsub : s.subscriptions.get? id = some sub)
    {out : List (SequentialProcessor.Output α)} (hout : ∀ o ∈ out, o.Within (s.Handed id)) :
    ∀ f ∈ failedOutputs env sub s out,
      Accounted f.before ∧ ∃ d, f.before.lookup f.tag = some (d, f.sub) := by
  induction out generalizing s with
  | nil => exact nofun
  | cons o out ih =>
    have e := report_evolves s env sub o
    have hrest := ih (ha.report hsub (hout o List.mem_cons_self)) (e.subscription _ _ hsub)
      fun o' ho' => e.within (hout o' (List.mem_cons_of_mem _ ho'))
    intro f hf
    cases o with
    | onFailure message error requeue info =>
      rcases List.mem_cons.mp hf with rfl | hf
      · have hhanded : s.Handed id message.tag := hout _ List.mem_cons_self
        obtain ⟨d, hl, -⟩ := hhanded.lookup hsub
        exact ⟨ha, d, hl⟩
      · exact hrest f hf
    | _ => exact hrest f hf

theorem failures_known {event : Event α} (ha : Accounted s) (H : Steps env s event t) :
    ∀ f ∈ s.failures env event, Accounted f.before ∧ ∃ d, f.before.lookup f.tag = some (d, f.sub) := by
  cases H with
  | @caught tag d sub decoded error hl hstage =>
    obtain ⟨htag, -⟩ := ha.attributed.delivery tag d (lookup_eq_some.mp hl).1
    obtain ⟨subscription, channel, message, settled, stage⟩ := d
    subst hstage
    intro f hf
    simp only [State.failures, hl, List.mem_map] at hf
    obtain ⟨requeue, -, rfl⟩ := hf
    exact ⟨ha, _, htag.symm ▸ hl⟩
  | @processor id sub p staleTimeout event r hsub hp hseq hlater hs =>
    intro f hf
    simp only [State.failures, hsub, hp, hseq, Option.bind_some, hs, Option.map_some,
      Option.getD_some] at hf
    have hr : SequentialProcessor.Keeps (s.Handed id) r :=
      (SequentialProcessor.step_cases hs).within (ha.attributed.processor id p hp)
        fun message hm => absurd hm (hlater message)
    have hset : Accounted { s with processors := s.processors.set id r.1 } := ha.setProcessor hr.1
    exact failedOutputs_known hset hsub hr.2 f hf
  | _ => rintro _ ⟨⟩

/-! ## Runs -/

/-- In a run whose failures settle as they are reported, every report is true of what was sent; and a
step reports the truth exactly when its failures settle so. -/
theorem messageFailed_truthful :
    (∀ w : State α × List Report, Reach (logged reportingStep) (fun w input => Settling w.1 input)
      (start, []) w → ∀ report ∈ w.2, report.Truthful) ∧
    ∀ (s t : State α) (input : Env α × Event α) (reports : List Report),
      Reach step anyStep start s → reportingStep s input = some (t, reports) →
      ((∀ report ∈ reports, report.Truthful) ↔ Settling s input) := by
  have hstep : ∀ {s t : State α} {input : Env α × Event α} {reports : List Report}, Accounted s →
      reportingStep s input = some (t, reports) → step s input = some t ∧
        ((∀ report ∈ reports, report.Truthful) ↔ Settling s input) := by
    intro s t input reports ha hs
    obtain ⟨t', ht, heq⟩ := Option.map_eq_some_iff.mp hs
    cases heq
    have hknown := failures_known ha (step_cases ht)
    refine ⟨ht, fun h f hf => ?_, fun h report hreport => ?_⟩
    · obtain ⟨hbefore, d, hl⟩ := hknown f hf
      exact (Failed.truthful_iff hbefore hl).mp (h _ (List.mem_map_of_mem hf))
    · obtain ⟨f, hf, rfl⟩ := List.mem_map.mp hreport
      obtain ⟨hbefore, d, hl⟩ := hknown f hf
      exact (Failed.truthful_iff hbefore hl).mpr (h f hf)
  constructor
  · intro w hr
    have hinv := hr.invariant (I := fun w => Accounted w.1 ∧ ∀ report ∈ w.2, report.Truthful)
      ⟨accounted_start, nofun⟩ fun h hok hlogged => by
        obtain ⟨t, reports, hs, rfl⟩ := logged_eq_some hlogged
        obtain ⟨ht, htrue⟩ := hstep h.1 hs
        refine ⟨(step_cases ht).accounted h.1, fun report hreport => ?_⟩
        rcases List.mem_append.mp hreport with hreport | hreport
        · exact h.2 report hreport
        · exact htrue.mpr hok report hreport
    exact hinv.2
  · intro s t input reports hr hs
    exact (hstep (accounted hr) hs).2

/-- A handler that fails once: the delivery goes back, and is reported so. -/
theorem messageFailed_truthful_run : ∃ w : State String × List Report, w.2 = [⟨1, true, true⟩] ∧
    ∀ report ∈ w.2, report.Truthful := by
  have hrun : (run (logged reportingStep) (fun w input => Settling w.1 input)
      ((start : State String), []) ([.subscribe 0 ⟨7, false, .once, none⟩, .deliver 0 { tag := 1 },
        .decoded 1, .callbackRejected 1 (.error "no stock"), .caught 1].map (Env.calm, ·))).any
      fun w => decide (w.2 = [⟨1, true, true⟩]) := by
    decide +kernel
  obtain ⟨w, hw, h⟩ := (Option.any_eq_true _ _).mp hrun
  exact ⟨w, of_decide_eq_true h, messageFailed_truthful.1 w (reach_of_run hw)⟩

/-- A handler that acknowledges its delivery and fails afterwards: the report says that it was
requeued, and it was not. -/
theorem messageFailed_after_ack : ∃ (w : State String × List Report) (report : Report),
    Reach (logged reportingStep) anyStep ((start : State String), []) w ∧ report ∈ w.2 ∧
      report.requeued = true ∧ report.sent = false := by
  have hrun : (run (logged reportingStep) anyStep ((start : State String), [])
      ([.subscribe 0 ⟨7, false, .once, none⟩, .deliver 0 { tag := 1 }, .decoded 1, .ackMessage 1,
        .callbackRejected 1 (.error "no stock"), .caught 1].map (Env.calm, ·))).any
      fun w => decide (⟨1, true, false⟩ ∈ w.2) := by
    decide +kernel
  obtain ⟨w, hw, h⟩ := (Option.any_eq_true _ _).mp hrun
  exact ⟨w, ⟨1, true, false⟩, reach_of_run hw, of_decide_eq_true h, rfl, rfl⟩

end ConsumePipeline
end RabbitMQ

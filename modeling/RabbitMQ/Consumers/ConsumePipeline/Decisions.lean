import RabbitMQ.Consumers.ConsumePipeline.Stages
import RabbitMQ.Consumers.ConsumePipeline.Settlement
import RabbitMQ.Consumers.SequentialProcessor.Contents
import RabbitMQ.Consumers.RetryPolicy.Redelivery

/-! Every nack of the pipeline is a decision of the retry policy, on the delivery that failed and on
what was thrown, whichever of the two subscriptions the delivery came to.

For a processor this rests on the messages that it holds: they are the ones that were delivered. -/

namespace RabbitMQ
namespace ConsumePipeline

open Transition

variable {α : Type} {s t : State α} {env : Env α} {sub : Subscription} {d : Delivery α}
  {tag id : Nat} {message : Message α} {error : Value}

theorem catchError_eq : s.catchError env sub message error =
    match requeueOf message error sub.retryPolicy with
    | none => s
    | some requeue => s.settleAck env sub message.tag (.nack requeue) := by
  unfold State.catchError requeueOf
  cases describedText error with
  | error e => rfl
  | ok text => cases shouldRequeue message error sub.retryPolicy <;> rfl

/-! ## The messages of a processor -/

/-- The message was delivered to this subscription. -/
def State.Delivered (s : State α) (id : Nat) (message : Message α) : Prop :=
  ∃ d, s.deliveries.get? message.tag = some d ∧ d.subscription = id ∧ d.message = message

theorem Evolves.delivered (h : Evolves s t) : s.Delivered id message → t.Delivered id message := by
  rintro ⟨d, hd, rfl, rfl⟩
  obtain ⟨d', hd', e⟩ := h.delivery _ d hd
  exact ⟨d', hd', e.subscription, e.message⟩

variable [DecidableEq α]

/-- The processors hold what was delivered to them. -/
def Carried (s : State α) : Prop := ∀ id p, s.processors.get? id = some p → p.Holds (s.Delivered id)

theorem carried_start : Carried (start : State α) := by
  intro id p hp
  cases hp

theorem Carried.of_evolves (h : Carried s) (e : Evolves s t) (hp : t.processors = s.processors) :
    Carried t := by
  intro id p hget
  rw [hp] at hget
  exact (h id p hget).mono fun _ => e.delivered

theorem Carried.advance (h : Carried s)
    {r : SequentialProcessor.State α × List (SequentialProcessor.Output α)}
    (hr : r.1.Holds (s.Delivered id)) : Carried (s.advance env id sub r) := by
  have e := advance_evolves s env id sub r
  intro id' p hget
  rw [(advance_processors r).2, OrderedMap.get?_set] at hget
  split at hget
  · next heq =>
    cases hget
    exact (heq ▸ hr).mono fun _ => e.delivered
  · exact (h id' p hget).mono fun _ => e.delivered

theorem Carried.processMessage (h : Carried s) (ha : Attributed s)
    (hd : s.lookup tag = some (d, sub)) : Carried (s.processMessage env d sub) := by
  obtain ⟨hget, -⟩ := lookup_eq_some.mp hd
  obtain ⟨htag, -⟩ := ha.delivery tag d hget
  have e : Evolves s (s.setStage d.message.tag .handling) := setStage_evolves fun _ _ _ => rfl
  have hs : Carried (s.setStage d.message.tag .handling) :=
    h.of_evolves e (setStage_processors _).2
  simp only [State.processMessage]
  split
  · next p hseq hp =>
    have hdelivered : s.Delivered d.subscription d.message := ⟨d, htag ▸ hget, rfl, rfl⟩
    exact hs.advance (SequentialProcessor.deliver_decides (hs _ p hp) (e.delivered hdelivered)).1
  · exact hs

theorem Carried.put (h : Carried s) {stage : Stage}
    (hstage : ∀ d, s.deliveries.get? tag = some d → d.stage.decoded → stage.decoded) :
    Carried (s.setStage tag stage) :=
  h.of_evolves (setStage_evolves hstage) (setStage_processors stage).2

theorem Carried.finish (h : Carried s) (tag : Nat) : Carried (s.finish tag) :=
  h.of_evolves (finish_evolves s tag) rfl

theorem Steps.carried [ToString α] {event : Event α} (H : Steps env s event t) (ha : Attributed s)
    (h : Carried s) : Carried t := by
  have hdecoded : ∀ {tag d sub}, s.lookup tag = some (d, sub) → d.stage = .decoding →
      ∀ d', s.deliveries.get? tag = some d' → d'.stage.decoded = false := by
    intro tag d sub hl hstage d' hd'
    cases (lookup_eq_some.mp hl).1.symm.trans hd'
    rw [hstage]
    rfl
  cases H with
  | @subscribe id sub hfresh =>
    have hp : ∀ id' p, (s.processors.set id SequentialProcessor.start).get? id' = some p →
        p.Holds (s.Delivered id') := by
      intro id' p hp
      rw [OrderedMap.get?_set] at hp
      split at hp
      · cases hp
        exact SequentialProcessor.State.holds_start
      · exact h id' p hp
    intro id' p hget
    dsimp only at hget
    split at hget
    · exact hp id' p hget
    · exact h id' p hget
  | @deliver id sub message hsub hfresh =>
    intro id' p hp
    refine (h id' p hp).mono fun message' hdelivered => ?_
    obtain ⟨d, hd, hrest⟩ := hdelivered
    refine ⟨d, ?_, hrest⟩
    rw [OrderedMap.get?_set, if_neg]
    · exact hd
    · intro heq
      exact hfresh (heq ▸ OrderedMap.mem_of_get? hd)
  | decoded hd => exact h.processMessage ha hd
  | undecodable hd hstage =>
    refine (h.finish _).put fun d' hd' hdec => ?_
    rw [hdecoded hd hstage d' hd'] at hdec
    cases hdec
  | @callbackResolved tag d sub =>
    have hacked : Carried ((s.settleAck env sub d.message.tag .ack).finish d.message.tag) :=
      Carried.finish (h.of_evolves (settleAck_evolves ..) (settleAck_processors ..).2) _
    unfold State.complete
    dsimp only
    split <;> exact hacked.put fun _ _ _ => rfl
  | callbackRejected => exact (h.finish _).put fun _ _ _ => rfl
  | caught =>
    refine Carried.put ?_ fun _ _ _ => rfl
    rw [catchError_eq]
    split
    · exact h
    · exact h.of_evolves (settleAck_evolves ..) (settleAck_processors ..).2
  | @processor id sub p staleTimeout event r hsub hp hseq hlater hs =>
    have hadvance : Carried (s.advance env id sub r) :=
      h.advance ((SequentialProcessor.step_cases hs).decides (h id p hp)
        fun message hm => absurd hm (hlater message)).1
    cases throwing p event with
    | none => exact hadvance
    | some tag => exact hadvance.finish tag
  | ackMessage =>
    unfold State.ackMessage
    split
    · exact h
    · exact h.of_evolves (settle_evolves ..) (settle_processors ..).2
  | nackMessage =>
    unfold State.nackMessage
    split
    · exact h
    · exact h.of_evolves (settle_evolves ..) (settle_processors ..).2

theorem carried [ToString α] {ok : State α → Env α × Event α → Prop} (hr : Reach step ok start s) :
    Carried s :=
  hr.invariant_of (fun hr => accounted hr) carried_start
    fun ha _ h _ hs => (step_cases hs).carried ha.attributed h

/-! ## What a step sends -/

/-- Whatever a step sends meets `P`. -/
def Sends (P : Settlement → Prop) (s t : State α) : Prop :=
  ∃ sent, t.settlements = s.settlements ++ sent ∧ ∀ f ∈ sent, P f

section Sends

variable {P Q : Settlement → Prop}

omit [DecidableEq α]

theorem Sends.nothing (h : t.settlements = s.settlements) : Sends P s t :=
  ⟨[], h.trans (List.append_nil _).symm, nofun⟩

theorem Sends.trans {u : State α} (h : Sends P s t) (h' : Sends P t u) : Sends P s u := by
  obtain ⟨sent, ht, hsent⟩ := h
  obtain ⟨sent', hu, hsent'⟩ := h'
  refine ⟨sent ++ sent', by rw [hu, ht, List.append_assoc], fun f hf => ?_⟩
  rcases List.mem_append.mp hf with hf | hf
  · exact hsent f hf
  · exact hsent' f hf

theorem settle_sends {channel : Nat} {action : Action} {origin : Origin}
    (hP : P ⟨channel, tag, action, origin⟩) : Sends P s (s.settle env channel tag action origin) := by
  unfold State.settle
  split
  · exact .nothing rfl
  · split
    · exact .nothing rfl
    · split
      · exact .nothing rfl
      · refine ⟨[⟨channel, tag, action, origin⟩], rfl, fun f hf => ?_⟩
        cases List.mem_singleton.mp hf
        exact hP

theorem settleAck_sends {action : Action} (hP : P ⟨sub.channel, tag, action, .pipeline⟩) :
    Sends P s (s.settleAck env sub tag action) := by
  unfold State.settleAck
  split
  · exact .nothing rfl
  · exact settle_sends hP

theorem setStage_sends {stage : Stage} : Sends P s (s.setStage tag stage) := by
  unfold State.setStage
  split <;> exact .nothing rfl

/-- By induction on the outputs. -/
theorem reports_send {out : List (SequentialProcessor.Output α)}
    (hack : ∀ tag, P ⟨sub.channel, tag, .ack, .pipeline⟩)
    (hnack : ∀ message error requeue info, .onFailure message error requeue info ∈ out →
      P ⟨sub.channel, message.tag, .nack requeue, .pipeline⟩) :
    Sends P s (out.foldl (State.report env sub) s) := by
  induction out generalizing s with
  | nil => exact .nothing rfl
  | cons o out ih =>
    have hrest := ih (s := State.report env sub s o) fun message error requeue info ho =>
      hnack message error requeue info (List.mem_cons_of_mem _ ho)
    refine Sends.trans ?_ hrest
    cases o with
    | onSuccess => exact (settleAck_sends (hack _)).trans (.nothing rfl)
    | onFailure message error requeue info =>
      exact (settleAck_sends (hnack _ _ _ _ List.mem_cons_self)).trans (.nothing rfl)
    | handled root result => cases result <;> exact setStage_sends
    | _ => exact .nothing rfl

theorem advance_sends {r : SequentialProcessor.State α × List (SequentialProcessor.Output α)}
    (hack : ∀ tag, P ⟨sub.channel, tag, .ack, .pipeline⟩)
    (hnack : ∀ message error requeue info, .onFailure message error requeue info ∈ r.2 →
      P ⟨sub.channel, message.tag, .nack requeue, .pipeline⟩) :
    Sends P s (s.advance env id sub r) := by
  have hput : Sends P s { s with processors := s.processors.set id r.1 } := .nothing rfl
  exact hput.trans (reports_send hack hnack)

end Sends

/-! ## Decisions -/

variable [ToString α]

/-- A failure that a step settles. -/
inductive Failure (env : Env α) (s : State α) (d : Delivery α) (sub : Subscription) :
    Event α → Value → Prop
  | caught {decoded error} (hstage : d.stage = .rejected decoded error) :
      Failure env s d sub (.caught d.message.tag) error
  | reported {p staleTimeout event r error requeue info}
      (hp : s.processors.get? d.subscription = some p)
      (hs : SequentialProcessor.step (config staleTimeout) p (hooks env sub event, event) = some r)
      (ho : .onFailure d.message error requeue info ∈ r.2) :
      Failure env s d sub (.processor d.subscription event) error

/-- A nack of the pipeline is what the policy says about a failure of the delivery. -/
def Decision (env : Env α) (s : State α) (event : Event α) (f : Settlement) : Prop :=
  f.origin = .pipeline → ∀ requeue, f.action = .nack requeue → ∃ d sub error,
    s.lookup f.tag = some (d, sub) ∧ Failure env s d sub event error ∧
      shouldRequeue d.message error sub.retryPolicy = .ok requeue

omit [ToString α] in
theorem deliver_reports {h : SequentialProcessor.Hooks α} {p : SequentialProcessor.State α}
    {requeue : Bool} {info : SequentialProcessor.Meta} :
    .onFailure message error requeue info ∉ (SequentialProcessor.deliver h p d.message).2 := by
  have hout : .onFailure message error requeue info ∉ (SequentialProcessor.handle h
      { p with handled := d.message.tag :: p.handled } d.message).2.1 := by
    generalize hr : SequentialProcessor.handle h
      { p with handled := d.message.tag :: p.handled } d.message = r
    have H := SequentialProcessor.handle_cases h
      { p with handled := d.message.tag :: p.handled } d.message
    rw [hr] at H
    cases H <;> simp
  intro ho
  simp only [SequentialProcessor.deliver] at ho
  split at ho
  · exact (List.mem_append.mp ho).elim hout fun ho => by cases List.mem_singleton.mp ho
  · exact (List.mem_append.mp ho).elim hout fun ho => by cases List.mem_singleton.mp ho
  · exact hout ho

theorem Steps.sends {event : Event α} (H : Steps env s event t) (ha : Attributed s)
    (hc : Carried s) : Sends (Decision env s event) s t := by
  cases H with
  | subscribe | deliver => exact .nothing rfl
  | @decoded tag d sub hd =>
    have hstage : Sends (Decision env s (.decoded tag)) s (s.setStage d.message.tag .handling) :=
      setStage_sends
    unfold State.processMessage
    dsimp only
    split
    · refine hstage.trans (advance_sends (fun _ _ _ hnack => by cases hnack) ?_)
      intro message error requeue info ho
      exact absurd ho deliver_reports
    · exact hstage
  | undecodable | callbackRejected => exact (Sends.nothing rfl).trans setStage_sends
  | @callbackResolved tag d sub hd =>
    have hack : Sends (Decision env s (.callbackResolved tag)) s
        ((s.settleAck env sub d.message.tag .ack).finish d.message.tag) :=
      (settleAck_sends fun _ _ hnack => by cases hnack).trans (.nothing rfl)
    unfold State.complete
    dsimp only
    split <;> exact hack.trans setStage_sends
  | @caught tag d sub decoded error hd hstage =>
    refine Sends.trans ?_ setStage_sends
    unfold State.catchError
    split
    · exact .nothing rfl
    · split
      · exact .nothing rfl
      · next requeue hrequeue =>
        refine settleAck_sends fun _ requeue' hnack => ?_
        cases hnack
        obtain ⟨htag, -⟩ := ha.delivery tag d (lookup_eq_some.mp hd).1
        subst htag
        exact ⟨d, sub, error, hd, .caught hstage, hrequeue⟩
  | @processor id sub p staleTimeout event r hsub hp hseq hlater hs =>
    have hdecides := (SequentialProcessor.step_cases hs).decides (hc id p hp)
      fun message hm => absurd hm (hlater message)
    have hadvance : Sends (Decision env s (.processor id event)) s (s.advance env id sub r) := by
      refine advance_sends (fun _ _ _ hnack => by cases hnack) fun message error requeue info ho => ?_
      obtain ⟨⟨d, hd, rfl, rfl⟩, hrequeue⟩ := hdecides.2 _ ho
      intro _ requeue' hnack
      cases hnack
      exact ⟨d, sub, error, lookup_eq_some.mpr ⟨hd, hsub⟩, .reported hp hs ho, hrequeue⟩
    cases throwing p event with
    | none => exact hadvance
    | some tag => exact hadvance.trans (.nothing rfl)
  | ackMessage =>
    unfold State.ackMessage
    split
    · exact .nothing rfl
    · exact settle_sends nofun
  | nackMessage =>
    unfold State.nackMessage
    split
    · exact .nothing rfl
    · exact settle_sends nofun

/-! ## The budget -/

/-- On a queue that counts its deliveries: when everything a handler throws gets through the `catch`
block, every failure is nacked, and requeued while the budget has room unless it opts out; a handler
that always allows a retry fails as often as the budget says, the last time without requeue. Both
subscriptions nack as the policy decides. -/
theorem retry_budget (message : Message α) (retryPolicy : RetryPolicy) :
    (∀ s, Reach (Redelivery.step (quorumQueue message) retryPolicy) (Redelivery.Handled retryPolicy)
        Redelivery.start s → s.place ≠ .unsettled ∧ ∀ nack ∈ s.nacks, (nack.requeue = true ↔
          nack.delivery < retryPolicy.budget ∧ nack.error.final = false)) ∧
    (0 < retryPolicy.budget → ∀ s, Reach (Redelivery.step (quorumQueue message) retryPolicy)
        (Redelivery.FailingRetryably retryPolicy) Redelivery.start s →
          Redelivery.Spends retryPolicy.budget s) ∧
    ∀ (s t : State α) (input : Env α × Event α), Reach step anyStep start s →
      step s input = some t → Sends (Decision input.1 s input.2) s t := by
  refine ⟨fun s hr => ?_, fun hpositive s hr => Redelivery.spends hpositive hr,
    fun s t input hr hs => (step_cases hs).sends (accounted hr).attributed (carried hr)⟩
  have h := Redelivery.budgeted hr
  refine ⟨h.settled, fun nack hnack => ?_⟩
  rw [h.nacks nack hnack, Bool.and_eq_true, decide_eq_true_eq, Bool.not_eq_true']

/-- An ordinary error under a budget of two: two deliveries, the second one dead-lettered. -/
theorem retry_budget_of_two : ∃ s : Redelivery.State,
    s.place = .deadLettered ∧ Redelivery.Spends 2 s ∧ s.place ≠ .unsettled := by
  have hcaught : Describable (.error "no stock") ∧ Retriable (.attempts 2) (.error "no stock") :=
    ⟨rfl, .inr rfl⟩
  have hfails : ∀ s, Redelivery.FailingRetryably (.attempts 2) s (.fail (.error "no stock")) :=
    fun _ => ⟨trivial, hcaught, fun error heq => by cases heq; rfl⟩
  have hdelivers : ∀ s, Redelivery.FailingRetryably (.attempts 2) s .deliver :=
    fun _ => ⟨trivial, trivial, nofun⟩
  have hrequeued : requeueOf (quorumQueue ({ tag := 1 } : Message String) 1) (.error "no stock")
      (.attempts 2) = some true := by decide +kernel
  have hnacked : requeueOf (quorumQueue ({ tag := 1 } : Message String) 2) (.error "no stock")
      (.attempts 2) = some false := by decide +kernel
  have hr : Reach (Redelivery.step (quorumQueue ({ tag := 1 } : Message String)) (.attempts 2))
      (Redelivery.FailingRetryably (.attempts 2)) Redelivery.start
      ⟨2, .deadLettered, [⟨1, .error "no stock", true⟩, ⟨2, .error "no stock", false⟩]⟩ := by
    refine .tail (s := ⟨2, .delivered, [⟨1, .error "no stock", true⟩]⟩) ?_ (hfails _)
      (by simp only [Redelivery.step, hnacked]; rfl)
    refine .tail (s := ⟨1, .queued, [⟨1, .error "no stock", true⟩]⟩) ?_ (hdelivers _) rfl
    refine .tail (s := ⟨1, .delivered, []⟩) ?_ (hfails _)
      (by simp only [Redelivery.step, hrequeued]; rfl)
    exact .tail .refl (hdelivers _) rfl
  have hmono : Reach (Redelivery.step (quorumQueue ({ tag := 1 } : Message String)) (.attempts 2))
      (Redelivery.Handled (.attempts 2)) Redelivery.start
      ⟨2, .deadLettered, [⟨1, .error "no stock", true⟩, ⟨2, .error "no stock", false⟩]⟩ :=
    hr.mono fun _ _ h => h.2.1
  obtain ⟨hfirst, hsecond, -⟩ := retry_budget ({ tag := 1 } : Message String) (.attempts 2)
  exact ⟨_, rfl, hsecond (Nat.succ_pos 1) _ hr, (hfirst _ hmono).1⟩

/-- A thrown value with no string conversion: the first delivery is never nacked, and there is no
second one. -/
theorem bare_error_unsettled : ∃ s, Reach (Redelivery.step
    (quorumQueue ({ tag := 1 } : Message String)) (.attempts 2)) Redelivery.Failing
    Redelivery.start s ∧ Value.bare.final = false ∧ s.deliveries = 1 ∧ s.nacks.length = 0 ∧
      ∀ event, Redelivery.Failing s event →
        Redelivery.step (quorumQueue ({ tag := 1 } : Message String)) (.attempts 2) s event = none := by
  have hnothing : (requeueOf (quorumQueue ({ tag := 1 } : Message String) 1) .bare
      (.attempts 2)) = none := rfl
  have hdelivered : Reach (Redelivery.step (quorumQueue ({ tag := 1 } : Message String))
      (.attempts 2)) Redelivery.Failing Redelivery.start ⟨1, .delivered, []⟩ :=
    .tail .refl (e := .deliver) trivial rfl
  refine ⟨⟨1, .unsettled, []⟩, hdelivered.tail (e := .fail .bare) trivial ?_, rfl, rfl, rfl, ?_⟩
  · simp only [Redelivery.step, hnothing]
    rfl
  · intro event hfailing
    cases event with
    | drop => exact absurd hfailing id
    | _ => rfl

end ConsumePipeline
end RabbitMQ

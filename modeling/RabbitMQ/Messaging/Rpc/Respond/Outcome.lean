import RabbitMQ.Messaging.Rpc.Respond.Calls
import RabbitMQ.Consumers.ConsumePipeline.Aside
import RabbitMQ.Consumers.ConsumePipeline.Custody
import RabbitMQ.Consumers.ConsumePipeline.Decisions
import RabbitMQ.Consumers.ConsumePipeline.Settlement

/-! How a request ends at its responder.

What a call of the callback has done so far determines its stage (`Call.Sound`), and the stage at
which it settles determines the one settlement of the delivery (`Fate`). -/

namespace RabbitMQ
namespace Respond

open Transition
open ConsumePipeline (Delivery Subscription Settlement)

variable {α : Type} {s s' : State α} {c : Call} {tag : Nat} {d : Delivery α} {sub : Subscription}

/-- The delivery was nacked as the retry policy decides on this error. -/
def NackedFor (sent : List Settlement) (d : Delivery α) (sub : Subscription) (error : Value) :
    Prop :=
  ∃ requeue, shouldRequeue d.message error sub.retryPolicy = .ok requeue ∧
    sent = [⟨sub.channel, d.message.tag, .nack requeue, .pipeline⟩]

def Acked (sent : List Settlement) (d : Delivery α) (sub : Subscription) : Prop :=
  sent = [⟨sub.channel, d.message.tag, .ack, .pipeline⟩]

/-- What holds of a request once its consume callback is over. -/
structure Outcome (sent : List Settlement) (d : Delivery α) (sub : Subscription) (c : Call) :
    Prop where
  stale : ∀ deadline ∈ c.request.deadline, 0 < deadline → deadline < c.invokedAt →
    Acked sent d sub ∧ c.ran = false ∧ c.published = []
  resolved : c.handler = some (.ok ()) → Acked sent d sub ∧ c.confirmed.length ≤ 1
  rejected : ∀ error, c.handler = some (.error error) → c.request.replyOnError = false →
    c.published = [] ∧ NackedFor sent d sub error
  answered : ∀ error, c.handler = some (.error error) → c.request.replyOnError = true →
    (.envelope ∈ c.confirmed → Acked sent d sub) ∧
      (.envelope ∉ c.confirmed → ∃ thrown ∈ c.thrown?, NackedFor sent d sub thrown)

/-! ## What comes of the delivery -/

/-- How far the delivery of a call is, with its settlement. -/
inductive Fate (sent : List Settlement) (d : Delivery α) (sub : Subscription) (c : Call) : Prop
  | running (hstage : d.stage = .handling) (hsent : sent = [])
  /-- a listener may have thrown after the ack -/
  | acked (hcall : c.stage = .resolved) (hstage : d.stage ≠ .decoding ∧ d.stage ≠ .handling)
      (hsent : Acked sent d sub)
  | throwing {thrown : Value} (hcall : c.stage = .rejected thrown)
      (hstage : d.stage = .rejected true thrown) (hsent : sent = [])
  | nacked {thrown : Value} (hcall : c.stage = .rejected thrown) (hstage : d.stage = .returned)
      (hsent : sent = ((requeueOf d.message thrown sub.retryPolicy).map fun requeue =>
        (⟨sub.channel, d.message.tag, .nack requeue, .pipeline⟩ : Settlement)).toList)

/-- A delivery of `respond` as the pipeline has it. -/
structure FollowedAt (s : State α) (tag : Nat) : Prop where
  request : tag ∈ s.requests → ∃ d sub, s.pipeline.lookup tag = some (d, sub) ∧
    sub.sequential = none ∧ (d.stage = .decoding → s.pipeline.settlementsOf tag = [])
  call : ∀ c, s.calls.get? tag = some c → tag ∈ s.requests ∧ c.Sound ∧
    ∀ d sub, s.pipeline.lookup tag = some (d, sub) → sub.noAck = false →
      Fate (s.pipeline.settlementsOf tag) d sub c

structure Followed (s : State α) : Prop where
  responder : ∀ id ∈ s.responders, ∃ sub, s.pipeline.subscriptions.get? id = some sub ∧
    sub.sequential = none
  followed : ∀ tag, FollowedAt s tag

theorem followed_start : Followed (start : State α) :=
  ⟨nofun, fun _ => ⟨nofun, fun _ (hc : none = some _) => nomatch hc⟩⟩

/-- The step passes the delivery by. -/
structure Beside (tag : Nat) (s s' : State α) : Prop where
  request : tag ∈ s'.requests ↔ tag ∈ s.requests
  call : s'.calls.get? tag = s.calls.get? tag
  delivery : ∀ d sub, s.pipeline.lookup tag = some (d, sub) → sub.sequential = none →
    s'.pipeline.lookup tag = some (d, sub) ∧
      s'.pipeline.settlementsOf tag = s.pipeline.settlementsOf tag

theorem FollowedAt.beside (h : FollowedAt s tag) (hb : Beside tag s s') : FollowedAt s' tag where
  request hmem := by
    obtain ⟨d, sub, hl, hplain, hopen⟩ := h.request (hb.request.mp hmem)
    obtain ⟨hl', hsent⟩ := hb.delivery d sub hl hplain
    exact ⟨d, sub, hl', hplain, fun hstage => hsent.trans (hopen hstage)⟩
  call c hc := by
    obtain ⟨hmem, hsound, hfate⟩ := h.call c (hb.call ▸ hc)
    refine ⟨hb.request.mpr hmem, hsound, fun d' sub' hl' hnoAck => ?_⟩
    obtain ⟨d, sub, hl, hplain, -⟩ := h.request hmem
    obtain ⟨hl'', hsent⟩ := hb.delivery d sub hl hplain
    cases hl''.symm.trans hl'
    rw [hsent]
    exact hfate _ _ hl hnoAck

theorem Fate.over {sent : List Settlement} (h : Fate sent d sub c) (hover : d.stage = .returned) :
    (c.stage = .resolved ∧ Acked sent d sub) ∨ ∃ thrown, c.stage = .rejected thrown ∧
      sent = ((requeueOf d.message thrown sub.retryPolicy).map fun requeue =>
        (⟨sub.channel, d.message.tag, .nack requeue, .pipeline⟩ : Settlement)).toList := by
  cases h with
  | running hhandling => cases hover.symm.trans hhandling
  | acked hcall _ hsent => exact .inl ⟨hcall, hsent⟩
  | throwing _ hrejected => cases hover.symm.trans hrejected
  | nacked hcall _ hsent => exact .inr ⟨_, hcall, hsent⟩

/-- How a call that settled leaves its delivery. -/
theorem Call.Sound.outcome (h : c.Sound) {sent : List Settlement} (hfate : Fate sent d sub c)
    (hover : d.stage = .returned)
    (hevaluable : ∀ thrown ∈ c.thrown?, Evaluable sub.retryPolicy d.message thrown) :
    Outcome sent d sub c := by
  have hacked : c.stage = .resolved → Acked sent d sub := by
    intro hresolved
    rcases hfate.over hover with ⟨-, hsent⟩ | ⟨_, hrejected, -⟩
    · exact hsent
    · cases hresolved.symm.trans hrejected
  have hsettled : c.stage = .resolved ∨ ∃ thrown, c.stage = .rejected thrown :=
    (hfate.over hover).imp And.left fun h => h.imp fun _ => And.left
  have hnotStale : ¬ c.request.Stale c.invokedAt → ∀ deadline ∈ c.request.deadline, 0 < deadline →
      deadline < c.invokedAt → Acked sent d sub ∧ c.ran = false ∧ c.published = [] :=
    fun hlive _ hmem hpositive hpast => absurd (stale_of_deadline hmem hpositive hpast) hlive
  cases h with
  | stale _ hstage hran hhandler hpublished =>
    refine ⟨fun _ _ _ _ => ⟨hacked hstage, hran, hpublished⟩, ?_, ?_, ?_⟩ <;> rw [hhandler] <;> simp
  | handling _ hstage | committed _ hstage | answering _ hstage =>
    rcases hsettled with hresolved | ⟨_, hrejected⟩
    · cases hstage.symm.trans hresolved
    · cases hstage.symm.trans hrejected
  | done hlive hstage hhandler hconfirmed =>
    refine ⟨hnotStale hlive, fun _ => ⟨hacked hstage, hconfirmed⟩, ?_, ?_⟩ <;> rw [hhandler] <;> simp
  | answered hlive hstage hhandler hreplies hconfirmed =>
    refine ⟨hnotStale hlive, by rw [hhandler]; simp, fun error _ hnot => ?_, fun error _ _ => ?_⟩
    · cases hnot.symm.trans hreplies.2
    · refine ⟨fun _ => hacked hstage, fun hnot => absurd ?_ hnot⟩
      rw [hconfirmed]
      exact List.mem_singleton_self _
  | @failed error thrown hlive hstage hhandler hthrown hprintable hconfirmed hquiet =>
    have hnacked : NackedFor sent d sub thrown := by
      rcases hfate.over hover with ⟨hresolved, -⟩ | ⟨thrown', hrejected, hsent⟩
      · cases hstage.symm.trans hresolved
      · cases hstage.symm.trans hrejected
        obtain ⟨requeue, hrequeue⟩ := (hevaluable thrown hthrown).shouldRequeue_ok
        obtain ⟨text, htext⟩ := hprintable.text
        refine ⟨requeue, hrequeue, ?_⟩
        rw [hsent, requeueOf, htext, hrequeue]
        rfl
    refine ⟨hnotStale hlive, by rw [hhandler]; simp, fun error' herror hnot => ?_,
      fun error' _ _ => ⟨?_, fun _ => ⟨thrown, hthrown, hnacked⟩⟩⟩
    · cases hhandler.symm.trans herror
      obtain ⟨hpublished, rfl⟩ := hquiet hnot
      exact ⟨hpublished, hnacked⟩
    · rw [hconfirmed]
      simp

/-- A nack that the policy decided shows that it could be asked. -/
theorem NackedFor.evaluable {sent : List Settlement} {thrown : Value}
    (h : NackedFor sent d sub thrown) : Evaluable sub.retryPolicy d.message thrown := by
  obtain ⟨requeue, hrequeue, -⟩ := h
  exact evaluable_of_shouldRequeue hrequeue

theorem Outcome.evaluable {sent : List Settlement} (h : Outcome sent d sub c) (hsound : c.Sound)
    {thrown : Value} (hmem : thrown ∈ c.thrown?) :
    Evaluable sub.retryPolicy d.message thrown := by
  cases hsound with
  | stale _ _ _ hhandler | handling _ _ hhandler | committed _ _ hhandler | done _ _ hhandler =>
    rw [Call.thrown?, hhandler] at hmem
    cases hmem
  | answering _ _ hhandler hreplies _ hfailures | answered _ _ hhandler hreplies _ hfailures =>
    rw [Call.thrown?, hhandler] at hmem
    dsimp only at hmem
    rw [if_pos hreplies, hfailures] at hmem
    cases hmem
  | @failed error thrown' hlive hstage hhandler hthrown hprintable hconfirmed hquiet =>
    cases hthrown.symm.trans hmem
    cases hreplies : c.request.replyOnError with
    | false =>
      obtain ⟨-, rfl⟩ := hquiet hreplies
      exact (h.rejected _ hhandler hreplies).2.evaluable
    | true =>
      obtain ⟨thrown', hthrown', hnacked⟩ := (h.answered error hhandler hreplies).2
        (by rw [hconfirmed]; nofun)
      cases hthrown.symm.trans hthrown'
      exact hnacked.evaluable

variable {env : ConsumePipeline.Env α}

/-- What is no delivery of `respond` does not become one. -/
theorem FollowedAt.absent (h : FollowedAt s tag) (hmem : tag ∉ s.requests)
    (hrequest : tag ∉ s'.requests) (hcall : s'.calls.get? tag = s.calls.get? tag) :
    FollowedAt s' tag where
  request hmem' := absurd hmem' hrequest
  call c hc := absurd (h.call c (hcall ▸ hc)).1 hmem

/-- The delivery of a call was decoded. -/
theorem Fate.not_decoding {sent : List Settlement} (h : Fate sent d sub c) :
    d.stage ≠ .decoding := by
  intro hstage
  cases h with
  | running hhandling => cases hstage.symm.trans hhandling
  | acked _ hnot => exact hnot.1 hstage
  | throwing _ hrejected => cases hstage.symm.trans hrejected
  | nacked _ hreturned => cases hstage.symm.trans hreturned

/-- While the handler runs, nothing was sent. -/
theorem Fate.of_handling {sent : List Settlement} (h : Fate sent d sub c)
    (hstage : d.stage = .handling) : sent = [] := by
  cases h with
  | running _ hsent => exact hsent
  | acked _ hnot => exact absurd hstage hnot.2
  | throwing _ hrejected => cases hstage.symm.trans hrejected
  | nacked _ hreturned => cases hstage.symm.trans hreturned

/-- The delivery after a step that put it in another stage. -/
theorem lookup_setStage {p p' : ConsumePipeline.State α} (e : ConsumePipeline.Evolves p p')
    (hl : p.lookup tag = some (d, sub)) (stage : ConsumePipeline.Stage) :
    ∃ d', (p'.setStage tag stage).lookup tag = some (d', sub) ∧ d'.message = d.message ∧
      d'.stage = stage := by
  obtain ⟨hd, hsub⟩ := ConsumePipeline.lookup_eq_some.mp hl
  obtain ⟨d', hd', hevolves⟩ := e.delivery tag d hd
  refine ⟨{ d' with stage }, ConsumePipeline.lookup_eq_some.mpr ⟨?_, ?_⟩, hevolves.message, rfl⟩
  · exact ConsumePipeline.setStage_get? hd' stage
  · rw [(ConsumePipeline.setStage_processors stage).1]
    exact hevolves.subscription ▸ e.subscription _ _ hsub

theorem followedAt_of (hrequest : tag ∈ s.requests) (hl : s.pipeline.lookup tag = some (d, sub))
    (hplain : sub.sequential = none) (hstage : d.stage ≠ .decoding)
    (hcall : ∀ c, s.calls.get? tag = some c → c.Sound ∧
      (sub.noAck = false → Fate (s.pipeline.settlementsOf tag) d sub c)) : FollowedAt s tag where
  request _ := ⟨d, sub, hl, hplain, fun hdecoding => absurd hdecoding hstage⟩
  call c hc := by
    obtain ⟨hsound, hfate⟩ := hcall c hc
    refine ⟨hrequest, hsound, fun d' sub' hl' hnoAck => ?_⟩
    cases hl.symm.trans hl'
    exact hfate hnoAck

/-- What the proof assumes of a run: no `ack` or `nack` of a request throws, the handlers leave the
settlement to the pipeline, and what is thrown can be rendered. -/
def Granted (s : State α) (input : ConsumePipeline.Env α × Event α) : Prop :=
  (∀ tag ∈ s.requests, ∀ action, input.1.refuses tag action = false) ∧
    match input.2 with
    | .pipeline (.ackMessage tag) | .pipeline (.nackMessage tag _) => tag ∉ s.requests
    | .handled _ (.error error) | .publishes _ (.error error) => Describable error
    | _ => True

/-- What the `catch` block leaves of the settlements. -/
theorem caught_settlementsOf {p : ConsumePipeline.State α} (h : ConsumePipeline.Counted p)
    (hl : p.lookup tag = some (d, sub)) (htag : d.message.tag = tag) (hnoAck : sub.noAck = false)
    (hrefuses : ∀ action, env.refuses tag action = false) (error : Value) :
    (p.settlementsOf tag ≠ [] → p.catchError env sub d.message error = p) ∧
    (p.settlementsOf tag = [] → (p.catchError env sub d.message error).settlementsOf tag =
      ((requeueOf d.message error sub.retryPolicy).map fun requeue =>
        (⟨sub.channel, tag, .nack requeue, .pipeline⟩ : Settlement)).toList) := by
  have hd := (ConsumePipeline.lookup_eq_some.mp hl).1
  rw [ConsumePipeline.catchError_eq, htag]
  cases requeueOf d.message error sub.retryPolicy with
  | none => exact ⟨fun _ => rfl, fun hopen => hopen⟩
  | some requeue =>
    refine ⟨fun hsent => h.settleAck_again hd hsent _, fun hopen => ?_⟩
    exact (h.settleAck_fresh hd hopen hnoAck (hrefuses _)).2

theorem FollowedAt.caught (h : FollowedAt s tag) (hmem : tag ∈ s.requests)
    (hcounted : ConsumePipeline.Counted s.pipeline)
    (hrefuses : ∀ action, env.refuses tag action = false) {decoded : Bool} {error : Value}
    (hl : s.pipeline.lookup tag = some (d, sub)) (htag : d.message.tag = tag)
    (hstage : d.stage = .rejected decoded error) :
    FollowedAt { s with
      pipeline := (s.pipeline.catchError env sub d.message error).setStage tag .returned } tag := by
  obtain ⟨_, _, hl', hplain, -⟩ := h.request hmem
  cases hl.symm.trans hl'
  obtain ⟨d', hd', hmessage, hreturned⟩ := lookup_setStage
    (ConsumePipeline.catchError_evolves s.pipeline env sub d.message error) hl .returned
  refine followedAt_of hmem hd' hplain (by rw [hreturned]; nofun) fun c hc => ?_
  obtain ⟨-, hsound, hfate⟩ := h.call c hc
  refine ⟨hsound, fun hnoAck => ?_⟩
  obtain ⟨hagain, hfresh⟩ := caught_settlementsOf hcounted hl htag hnoAck hrefuses error
  rw [ConsumePipeline.setStage_settlementsOf]
  cases hfate d sub hl hnoAck with
  | running hhandling => cases hstage.symm.trans hhandling
  | acked hresolved _ hsent =>
    have hkept := hagain (by rw [hsent]; nofun)
    refine .acked hresolved (by rw [hreturned]; exact ⟨nofun, nofun⟩) ?_
    rw [hkept, Acked, hmessage]
    exact hsent
  | throwing hrejected hstage' hsent =>
    cases hstage.symm.trans hstage'
    refine .nacked hrejected hreturned ?_
    rw [hfresh hsent, hmessage, htag]
  | nacked _ hstage' => cases hstage.symm.trans hstage'

theorem FollowedAt.undecodable (h : FollowedAt s tag) (hmem : tag ∈ s.requests)
    (hl : s.pipeline.lookup tag = some (d, sub)) (hstage : d.stage = .decoding) (error : Value) :
    FollowedAt { s with
      pipeline := (s.pipeline.finish tag).setStage tag (.rejected false error) } tag := by
  obtain ⟨_, _, hl', hplain, -⟩ := h.request hmem
  cases hl.symm.trans hl'
  obtain ⟨d', hd', -, hrejected⟩ := lookup_setStage
    (ConsumePipeline.finish_evolves s.pipeline tag) hl (.rejected false error)
  refine followedAt_of hmem hd' hplain (by rw [hrejected]; nofun) fun c hc => ?_
  obtain ⟨-, hsound, hfate⟩ := h.call c hc
  exact ⟨hsound, fun hnoAck => absurd hstage (hfate d sub hl hnoAck).not_decoding⟩

/-- The callback returned: the pipeline acknowledges. -/
theorem FollowedAt.resolved (h : FollowedAt s tag) (hmem : tag ∈ s.requests)
    (hcounted : ConsumePipeline.Counted s.pipeline)
    (hrefuses : ∀ action, env.refuses tag action = false)
    (hl : s.pipeline.lookup tag = some (d, sub)) (htag : d.message.tag = tag)
    (hstage : d.stage = .handling) (hc : s.calls.get? tag = some c) (hcall : c.stage = .resolved) :
    FollowedAt { s with pipeline := s.pipeline.complete env d sub } tag := by
  obtain ⟨_, _, hl', hplain, -⟩ := h.request hmem
  cases hl.symm.trans hl'
  obtain ⟨hd, -⟩ := ConsumePipeline.lookup_eq_some.mp hl
  have hafter : ∃ stage : ConsumePipeline.Stage, stage ≠ .decoding ∧ stage ≠ .handling ∧
      s.pipeline.complete env d sub =
        ((s.pipeline.settleAck env sub tag .ack).finish tag).setStage tag stage := by
    rw [ConsumePipeline.State.complete, htag]
    cases env.processed d.message with
    | ok => exact ⟨.returned, by simp, by simp, rfl⟩
    | error e => exact ⟨.rejected true e, by simp, by simp, rfl⟩
  obtain ⟨stage, hdecoding, hhandling, heq⟩ := hafter
  have e : ConsumePipeline.Evolves s.pipeline
      ((s.pipeline.settleAck env sub tag .ack).finish tag) :=
    (ConsumePipeline.settleAck_evolves ..).trans (ConsumePipeline.finish_evolves ..)
  obtain ⟨d', hd', hmessage, hstage'⟩ := lookup_setStage e hl stage
  rw [heq]
  refine followedAt_of hmem hd' hplain (hstage' ▸ hdecoding) fun c' hc' => ?_
  cases hc.symm.trans hc'
  obtain ⟨-, hsound, hfate⟩ := h.call c hc
  refine ⟨hsound, fun hnoAck => .acked hcall ⟨hstage' ▸ hdecoding, hstage' ▸ hhandling⟩ ?_⟩
  have hopen := (hfate d sub hl hnoAck).of_handling hstage
  rw [ConsumePipeline.setStage_settlementsOf, Acked, hmessage, htag]
  exact (hcounted.settleAck_fresh hd hopen hnoAck (hrefuses _)).2

theorem FollowedAt.rejected (h : FollowedAt s tag) (hmem : tag ∈ s.requests)
    (hl : s.pipeline.lookup tag = some (d, sub)) (hstage : d.stage = .handling)
    (hc : s.calls.get? tag = some c) {thrown : Value} (hcall : c.stage = .rejected thrown) :
    FollowedAt { s with
      pipeline := (s.pipeline.finish tag).setStage tag (.rejected true thrown) } tag := by
  obtain ⟨_, _, hl', hplain, -⟩ := h.request hmem
  cases hl.symm.trans hl'
  obtain ⟨d', hd', -, hrejected⟩ := lookup_setStage
    (ConsumePipeline.finish_evolves s.pipeline tag) hl (.rejected true thrown)
  refine followedAt_of hmem hd' hplain (by rw [hrejected]; nofun) fun c' hc' => ?_
  cases hc.symm.trans hc'
  obtain ⟨-, hsound, hfate⟩ := h.call c hc
  refine ⟨hsound, fun hnoAck => .throwing hcall hrejected ?_⟩
  rw [ConsumePipeline.setStage_settlementsOf]
  exact (hfate d sub hl hnoAck).of_handling hstage

/-- The callback moves on between two of its awaits. -/
theorem FollowedAt.goesOn (h : FollowedAt s tag) (hc : s.calls.get? tag = some c)
    {c' : Call} (hsound : c'.Sound)
    (hunsettled : ∀ thrown, c.stage ≠ .resolved ∧ c.stage ≠ .rejected thrown) :
    FollowedAt { s with calls := s.calls.set tag c' } tag where
  request := h.request
  call x hx := by
    rw [OrderedMap.get?_set_self] at hx
    cases hx
    obtain ⟨hmem, -, hfate⟩ := h.call c hc
    refine ⟨hmem, hsound, fun d sub hl hnoAck => ?_⟩
    cases hfate d sub hl hnoAck with
    | running hhandling hsent => exact .running hhandling hsent
    | acked hresolved => exact absurd hresolved (hunsettled .undefined).1
    | throwing hrejected | nacked hrejected => exact absurd hrejected (hunsettled _).2

variable [DecidableEq α]

/-- The callback is called. -/
theorem FollowedAt.invoked (h : FollowedAt s tag) (hmem : tag ∈ s.requests)
    (hl : s.pipeline.lookup tag = some (d, sub)) (htag : d.message.tag = tag)
    (hstage : d.stage = .decoding) (request : Request) (now : ℚ) :
    FollowedAt { s with
      pipeline := s.pipeline.processMessage env d sub
      calls := s.calls.set tag (.begin request now) } tag := by
  obtain ⟨_, _, hl', hplain, hopen⟩ := h.request hmem
  cases hl.symm.trans hl'
  have hprocess : s.pipeline.processMessage env d sub = s.pipeline.setStage tag .handling := by
    rw [ConsumePipeline.State.processMessage, hplain, htag]
  obtain ⟨d', hd', -, hhandling⟩ := lookup_setStage
    (ConsumePipeline.Evolves.refl s.pipeline) hl .handling
  rw [hprocess]
  refine followedAt_of hmem hd' hplain (by rw [hhandling]; simp) fun c hc => ?_
  rw [OrderedMap.get?_set_self] at hc
  cases hc
  refine ⟨Call.sound_begin request now, fun _ => .running hhandling ?_⟩
  exact (ConsumePipeline.setStage_settlementsOf .handling).trans (hopen hstage)

variable [ToString α]

/-- A step of the pipeline passes every delivery by that it does not name. -/
theorem beside_of_step {event : ConsumePipeline.Event α} {pipeline : ConsumePipeline.State α}
    (hp : ConsumePipeline.step s.pipeline (env, event) = some pipeline)
    (haccounted : ConsumePipeline.Accounted s.pipeline) (hevent : event.tag? ≠ some tag)
    (hs : s'.pipeline = pipeline) (hrequest : tag ∈ s'.requests ↔ tag ∈ s.requests)
    (hcall : s'.calls.get? tag = s.calls.get? tag) : Beside tag s s' := by
  have hsteps := ConsumePipeline.step_cases hp
  refine ⟨hrequest, hcall, fun d sub hl hplain => ?_⟩
  have hsame := hsteps.untouched haccounted hl hplain hevent
  obtain ⟨hd, hsub⟩ := ConsumePipeline.lookup_eq_some.mp hl
  rw [hs]
  refine ⟨ConsumePipeline.lookup_eq_some.mpr ⟨hsame.delivery.trans hd, ?_⟩, hsame.settlements⟩
  exact hsteps.evolves.subscription _ _ hsub

theorem Followed.responder_kept (h : Followed s) {event : ConsumePipeline.Event α}
    {pipeline : ConsumePipeline.State α}
    (hp : ConsumePipeline.step s.pipeline (env, event) = some pipeline) :
    ∀ id ∈ s.responders, ∃ sub, pipeline.subscriptions.get? id = some sub ∧
      sub.sequential = none := by
  intro id hid
  obtain ⟨sub, hsub, hplain⟩ := h.responder id hid
  exact ⟨sub, (ConsumePipeline.step_cases hp).evolves.subscription id sub hsub, hplain⟩

/-- A step of the manager, which names a delivery of `respond` only to catch what was thrown. -/
theorem Followed.pipeline (h : Followed s) (ha : ConsumePipeline.Accounted s.pipeline)
    {event : ConsumePipeline.Event α} {pipeline : ConsumePipeline.State α}
    (hpasses : s.Passes event) (hok : Granted s (env, .pipeline event))
    (hp : ConsumePipeline.step s.pipeline (env, event) = some pipeline) (tag : Nat) :
    FollowedAt { s with pipeline } tag := by
  by_cases hmem : tag ∈ s.requests
  swap
  · exact (h.followed tag).absent hmem hmem rfl
  by_cases hevent : event.tag? = some tag
  swap
  · exact (h.followed tag).beside (beside_of_step hp ha hevent rfl Iff.rfl rfl)
  have htags : ∀ {d sub}, s.pipeline.lookup tag = some (d, sub) → d.message.tag = tag :=
    fun hl => (ha.attributed.delivery tag _ (ConsumePipeline.lookup_eq_some.mp hl).1).1
  cases event with
  | subscribe | deliver | processor => cases hevent
  | decoded | callbackResolved | callbackRejected =>
    cases hevent
    exact absurd hmem hpasses
  | ackMessage | nackMessage =>
    cases hevent
    exact absurd hmem hok.2
  | undecodable t error =>
    cases hevent
    cases ConsumePipeline.step_cases hp with
    | undecodable hl hstage => exact (h.followed tag).undecodable hmem hl hstage error
  | caught =>
    cases hevent
    cases ConsumePipeline.step_cases hp with
    | caught hl hstage =>
      exact (h.followed tag).caught hmem ha.counted (hok.1 tag hmem) hl (htags hl) hstage

omit [DecidableEq α] [ToString α] in
/-- The callback of a delivery moves on. -/
theorem Followed.goesOn (h : Followed s) (hc : s.calls.get? tag = some c) {c' : Call}
    (hsound : c.Sound → c'.Sound)
    (hunsettled : ∀ thrown, c.stage ≠ .resolved ∧ c.stage ≠ .rejected thrown) :
    Followed { s with calls := s.calls.set tag c' } := by
  refine ⟨h.responder, fun t => ?_⟩
  by_cases ht : t = tag
  · subst ht
    have hcall := (h.followed t).call c hc
    exact (h.followed t).goesOn hc (hsound hcall.2.1) hunsettled
  · refine (h.followed t).beside ⟨Iff.rfl, ?_, fun d sub hl _ => ⟨hl, rfl⟩⟩
    exact (OrderedMap.get?_set ..).trans (if_neg ht)

/-- A request arrives. -/
theorem Followed.delivered (h : Followed s) (hcounted : ConsumePipeline.Counted s.pipeline)
    {id : Nat} {message : Message α} {pipeline : ConsumePipeline.State α}
    (hid : id ∈ s.responders)
    (hp : ConsumePipeline.step s.pipeline (env, .deliver id message) = some pipeline)
    (request : Request) :
    FollowedAt { s with pipeline, requests := s.requests.set message.tag request } message.tag := by
  obtain ⟨sub, hsub, hplain⟩ := h.responder id hid
  cases ConsumePipeline.step_cases hp with
  | @deliver _ sub' _ hsub' hfresh =>
    cases hsub.symm.trans hsub'
    have hopen : s.pipeline.settlementsOf message.tag = [] := by
      apply List.length_eq_zero_iff.mp
      rw [hcounted.count, ConsumePipeline.State.settled, OrderedMap.not_mem_iff.mp hfresh]
      rfl
    refine ⟨fun _ => ⟨_, sub, ConsumePipeline.lookup_eq_some.mpr ⟨OrderedMap.get?_set_self .., hsub⟩,
      hplain, fun _ => hopen⟩, fun c hc => ?_⟩
    -- a call would have a delivery already
    obtain ⟨d, _, hl, -⟩ := (h.followed _).request ((h.followed _).call c hc).1
    exact absurd (OrderedMap.mem_of_get? (ConsumePipeline.lookup_eq_some.mp hl).1) hfresh

theorem Steps.followed {event : Event α} (hs : Steps env s event s')
    (ha : ConsumePipeline.Accounted s.pipeline) (hok : Granted s (env, event)) (h : Followed s) :
    Followed s' := by
  have htags : ∀ {tag d sub}, s.pipeline.lookup tag = some (d, sub) → d.message.tag = tag :=
    fun hl => (ha.attributed.delivery _ _ (ConsumePipeline.lookup_eq_some.mp hl).1).1
  cases hs with
  | pipeline hpasses hp => exact ⟨h.responder_kept hp, h.pipeline ha hpasses hok hp⟩
  | @respond id channel noAck retryPolicy replyOnError pipeline hp =>
    refine ⟨fun i hi => ?_, fun tag => ?_⟩
    · rcases OrderedMap.mem_set.mp hi with rfl | hi
      · cases ConsumePipeline.step_cases hp with
        | subscribe => exact ⟨_, OrderedMap.get?_set_self .., rfl⟩
      · exact h.responder_kept hp i hi
    · exact (h.followed tag).beside (beside_of_step hp ha nofun rfl Iff.rfl rfl)
  | @deliver id message replyTo deadline replyOnError pipeline hresponder hp =>
    refine ⟨h.responder_kept hp, fun tag => ?_⟩
    by_cases htag : tag = message.tag
    · subst htag
      exact h.delivered ha.counted (OrderedMap.mem_of_get? hresponder) hp _
    · refine (h.followed tag).beside (beside_of_step hp ha nofun rfl ?_ rfl)
      rw [OrderedMap.mem_set]
      exact or_iff_right htag
  | @invoked tag now request pipeline hrequest hp =>
    refine ⟨h.responder_kept hp, fun t => ?_⟩
    by_cases ht : t = tag
    · subst ht
      cases ConsumePipeline.step_cases hp with
      | decoded hl hstage =>
        exact (h.followed t).invoked (OrderedMap.mem_of_get? hrequest) hl (htags hl) hstage ..
    · refine (h.followed t).beside (beside_of_step hp ha ?_ rfl Iff.rfl ?_)
      · exact fun heq => ht (Option.some_inj.mp heq).symm
      · exact (OrderedMap.get?_set ..).trans (if_neg ht)
  | @handled tag result c hc hstage =>
    refine h.goesOn hc (fun hsound => hsound.handled hstage result ?_) fun _ => ?_
    · rintro error rfl
      exact hok.2
    · rw [hstage]
      exact ⟨nofun, nofun⟩
  | publishes hc hstage =>
    refine h.goesOn hc (fun hsound => hsound.publishes hstage) fun _ => ?_
    rw [hstage]
    exact ⟨nofun, nofun⟩
  | fails hc hstage =>
    refine h.goesOn hc (fun hsound => hsound.fails hstage hok.2) fun _ => ?_
    rw [hstage]
    exact ⟨nofun, nofun⟩
  | @resolved tag c pipeline hc hstage hp =>
    refine ⟨h.responder_kept hp, fun t => ?_⟩
    obtain ⟨hmem, -⟩ := (h.followed tag).call c hc
    by_cases ht : t = tag
    · subst ht
      cases ConsumePipeline.step_cases hp with
      | callbackResolved hl hhandling =>
        exact (h.followed t).resolved hmem ha.counted (hok.1 t hmem) hl (htags hl) hhandling hc hstage
    · refine (h.followed t).beside (beside_of_step hp ha ?_ rfl Iff.rfl rfl)
      exact fun heq => ht (Option.some_inj.mp heq).symm
  | @rejected tag c error pipeline hc hstage hp =>
    refine ⟨h.responder_kept hp, fun t => ?_⟩
    obtain ⟨hmem, -⟩ := (h.followed tag).call c hc
    by_cases ht : t = tag
    · subst ht
      cases ConsumePipeline.step_cases hp with
      | callbackRejected hl hhandling => exact (h.followed t).rejected hmem hl hhandling hc hstage
    · refine (h.followed t).beside (beside_of_step hp ha ?_ rfl Iff.rfl rfl)
      exact fun heq => ht (Option.some_inj.mp heq).symm

/-! ## Runs -/

/-- The pipeline of a run is a run of the pipeline. -/
theorem pipeline_reach {ok : State α → ConsumePipeline.Env α × Event α → Prop}
    (hr : Reach step ok start s) :
    Reach ConsumePipeline.step anyStep ConsumePipeline.start s.pipeline := by
  induction hr with
  | refl => exact .refl
  | @tail s s' input _ _ hs ih =>
    obtain ⟨env, event⟩ := input
    have H : Steps env s event s' := step_cases hs
    cases H with
    | pipeline _ hp | respond hp | deliver _ hp | invoked _ hp | resolved _ _ hp
    | rejected _ _ hp => exact ih.tail trivial hp
    | handled | publishes | fails => exact ih

theorem followed (hr : Reach step Granted start s) : Followed s :=
  hr.invariant_of (fun hr => ConsumePipeline.accounted (pipeline_reach hr)) followed_start
    fun ha _ h hok hs => (step_cases hs).followed ha hok h

/-- In every run, for every request whose consume callback is over: it ends as it should if and
only if the retry policy can be evaluated on what its handler left the callback with. -/
theorem responder_outcome (hr : Reach step Granted start s) (hc : s.calls.get? tag = some c)
    (hl : s.pipeline.lookup tag = some (d, sub)) (hnoAck : sub.noAck = false)
    (hover : d.stage = .returned) :
    Outcome (s.pipeline.settlementsOf tag) d sub c ↔
      ∀ thrown ∈ c.thrown?, Evaluable sub.retryPolicy d.message thrown := by
  obtain ⟨-, hsound, hfates⟩ := ((followed hr).followed tag).call c hc
  have hfate := hfates d sub hl hnoAck
  exact ⟨fun h thrown hmem => h.evaluable hsound hmem, fun h => hsound.outcome hfate hover h⟩

/-! ## A handler that throws -/

private instance (stage : ConsumePipeline.Stage) : Decidable (stage = .returned) :=
  match stage with
  | .returned => isTrue rfl
  | .decoding | .handling | .rejected .. => isFalse nofun

/-- A request whose handler throws this, up to the end of the `catch` block. -/
private def refusing (error : Value) : List (ConsumePipeline.Env String × Event String) :=
  [.respond 0 7 false .once false, .deliver 0 { tag := 1 } true (some 50), .invoked 1 10,
    .handled 1 (.error error), .returned 1, .pipeline (.caught 1)].map (ConsumePipeline.Env.calm, ·)

private theorem refusing_reach {error : Value} {s : State String} (hprintable : Describable error)
    (hs : run step anyStep start (refusing error) = some s) : Reach step Granted start s := by
  refine reach_of_run_of_forall (fun i hi s => ?_) hs
  simp only [refusing, List.map_cons, List.map_nil, List.mem_cons, List.not_mem_nil,
    or_false] at hi
  rcases hi with rfl | rfl | rfl | rfl | rfl | rfl
  case inr.inr.inr.inl => exact ⟨fun _ _ _ => rfl, hprintable⟩
  all_goals exact ⟨fun _ _ _ => rfl, trivial⟩

/-- The request of a handler that throws an ordinary error goes back to its queue once. -/
theorem responder_outcome_refused : ∃ (s : State String) (d : Delivery String)
    (sub : Subscription) (c : Call), Outcome (s.pipeline.settlementsOf 1) d sub c ∧
      s.pipeline.settlementsOf 1 = [⟨7, 1, .nack true, .pipeline⟩] := by
  have hrun : (run step anyStep start (refusing (.error "no stock"))).any fun s =>
      (s.pipeline.lookup 1).any fun (d, sub) => (s.calls.get? 1).any fun c =>
        decide (sub.noAck = false ∧ d.stage = .returned ∧
          (∀ thrown ∈ c.thrown?, Evaluable sub.retryPolicy d.message thrown) ∧
          s.pipeline.settlementsOf 1 = [⟨7, 1, .nack true, .pipeline⟩]) := by decide +kernel
  obtain ⟨s, hs, h⟩ := (Option.any_eq_true _ _).mp hrun
  obtain ⟨⟨d, sub⟩, hl, h⟩ := (Option.any_eq_true _ _).mp h
  obtain ⟨c, hc, h⟩ := (Option.any_eq_true _ _).mp h
  obtain ⟨hnoAck, hover, hevaluable, hsent⟩ := of_decide_eq_true h
  have hr := refusing_reach (describable_error _) hs
  exact ⟨s, d, sub, c, (responder_outcome hr hc hl hnoAck hover).mpr hevaluable, hsent⟩

/-- An error whose `retryable` is a getter that throws. -/
private def guarded : Value :=
  .object (.ok (.string "boom")) (.error (.error "getter")) (.ok "Error: boom")

/-- The `catch` block throws before it settles. -/
theorem responder_unsettled_of_getter : ∃ (s : State String) (d : Delivery String)
    (sub : Subscription) (c : Call), Reach step Granted start s ∧ s.calls.get? 1 = some c ∧
      s.pipeline.lookup 1 = some (d, sub) ∧ sub.noAck = false ∧ d.stage = .returned ∧
      ¬ Outcome (s.pipeline.settlementsOf 1) d sub c := by
  have hrun : (run step anyStep start (refusing guarded)).any fun s =>
      (s.pipeline.lookup 1).any fun (d, sub) => (s.calls.get? 1).any fun c =>
        decide (sub.noAck = false ∧ d.stage = .returned ∧ s.pipeline.settlementsOf 1 = [] ∧
          c.request.replyOnError = false) && c.handler.any fun result => !result.isOk := by
    decide +kernel
  obtain ⟨s, hs, h⟩ := (Option.any_eq_true _ _).mp hrun
  obtain ⟨⟨d, sub⟩, hl, h⟩ := (Option.any_eq_true _ _).mp h
  obtain ⟨c, hc, h⟩ := (Option.any_eq_true _ _).mp h
  obtain ⟨h, hhandler⟩ := Bool.and_eq_true_iff.mp h
  obtain ⟨hnoAck, hover, hsent, hnot⟩ := of_decide_eq_true h
  obtain ⟨result, hresult, hthrew⟩ := (Option.any_eq_true _ _).mp hhandler
  have hprintable : Describable guarded := rfl
  refine ⟨s, d, sub, c, refusing_reach hprintable hs, hc, hl, hnoAck, hover, fun houtcome => ?_⟩
  cases result with
  | ok => cases hthrew
  | error error =>
    obtain ⟨-, _, -, hnacked⟩ := houtcome.rejected error hresult hnot
    cases hsent.symm.trans hnacked

end Respond
end RabbitMQ

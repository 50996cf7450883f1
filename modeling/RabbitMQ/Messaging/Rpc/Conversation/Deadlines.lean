import RabbitMQ.Messaging.Rpc.Conversation.Answers
import Mathlib.Algebra.Order.Ring.Rat
import Mathlib.Data.Nat.Cast.Order.Ring

/-! The deadline of a request. The requester stamps it with the instant its timer is due, and a
responder starts no handler past it. -/

namespace RabbitMQ

theorem Rpc.Steps.issued {s s' : Rpc.State} {event : Rpc.Event} (hs : Rpc.Steps s event s') {k : Nat}
    (hmem : k ∈ s.issued) : k ∈ s'.issued := by
  cases hsilent : event.silent with
  | true => rwa [(hs.unanswered hsilent).issued]
  | false =>
    cases hs with
    | encoded => exact OrderedMap.mem_set.mpr (.inr hmem)
    | decoded => exact hmem
    | reply =>
      unfold Rpc.State.handleReply
      repeat' split
      all_goals exact hmem
    | _ => cases hsilent

/-- What is known of a delivery once it began does not change. -/
theorem Respond.Steps.requests {α : Type} [DecidableEq α] [ToString α]
    {env : ConsumePipeline.Env α} {s s' : Respond.State α} {event : Respond.Event α} {tag : Nat}
    (hs : Respond.Steps env s event s') (hmem : tag ∈ s.pipeline.deliveries) :
    s'.requests.get? tag = s.requests.get? tag := by
  cases hs with
  | deliver _ hp =>
    cases ConsumePipeline.step_cases hp with
    | deliver _ hfresh =>
      refine (OrderedMap.get?_set _ _ _ _).trans (if_neg ?_)
      rintro rfl
      exact hfresh hmem
  | pipeline | respond | invoked | handled | publishes | fails | resolved | rejected => rfl

namespace Conversation

open Transition

variable {α V Bytes : Type} {c : Config V Bytes} {s s' : State α V Bytes}

/-- The timeout is one that `setTimeout` waits for. -/
def Waitable (_ : State α V Bytes) (input : ConsumePipeline.Env α × Event α V Bytes) : Prop :=
  match input.2 with
  | .request _ timeout => timeout.getD 30000 < 2 ^ 31
  | _ => True

instance (s : State α V Bytes) (input : ConsumePipeline.Env α × Event α V Bytes) :
    Decidable (Waitable s input) := by
  unfold Waitable
  split <;> infer_instance

structure Timely (c : Config V Bytes) (s : State α V Bytes) : Prop where
  forward : 0 ≤ s.now
  timeout : ∀ request timeout, s.timeouts.get? request = some timeout →
    0 < timeout ∧ timeout < 2 ^ 31
  deadline : ∀ k deadline, s.deadlines.get? k = some deadline →
    0 < deadline ∧ k ∈ s.rpc.issued
  due : s.due = s.deadlines
  origin : ∀ tag k, s.origins.get? tag = some k → ∃ deadline request,
    s.deadlines.get? k = some deadline ∧ s.respond.requests.get? tag = some request ∧
      request.deadline = some deadline
  started : ∀ x ∈ s.started, ∃ deadline, s.deadlines.get? x.correlationId = some deadline ∧
    x.instant + c.skew ≤ deadline
  expired : ∀ x ∈ s.expired, ∃ deadline, s.deadlines.get? x.1 = some deadline ∧ deadline ≤ x.2

theorem timely_start : Timely c (start : State α V Bytes) where
  forward := le_refl 0
  timeout _ _ h := nomatch h
  deadline _ _ h := nomatch h
  due := rfl
  origin _ _ h := nomatch h
  started _ h := nomatch h
  expired _ h := nomatch h

/-- A step of the requester in which no correlation id is given out and no timer fires. -/
theorem Timely.requests (h : Timely c s) {rpc : Rpc.State} {arriving : OrderedMap Nat (Reply Bytes)}
    {answers : List (Answered V)} (hissued : ∀ k ∈ s.rpc.issued, k ∈ rpc.issued) :
    Timely c { s with rpc, arriving, answers } where
  forward := h.forward
  timeout := h.timeout
  deadline k d hd := (h.deadline k d hd).imp_right (hissued k)
  due := h.due
  origin := h.origin
  started := h.started
  expired := h.expired

/-- A step of the responders that starts no handler. -/
theorem Timely.responds (h : Timely c s) {respond : Respond.State α}
    {results : OrderedMap Nat (MessageCodec.Message V Bytes)} {replies : List (Reply Bytes)}
    {handled : List (Handled V Bytes)}
    (hkept : ∀ tag ∈ s.origins, respond.requests.get? tag = s.respond.requests.get? tag) :
    Timely c { s with respond, results, replies, handled } where
  forward := h.forward
  timeout := h.timeout
  deadline := h.deadline
  due := h.due
  origin tag k hk := by
    obtain ⟨deadline, request, hdeadline, hrequest, hread⟩ := h.origin tag k hk
    exact ⟨deadline, request, hdeadline,
      (hkept tag (OrderedMap.mem_of_get? hk)).trans hrequest, hread⟩
  started := h.started
  expired := h.expired

/-- A fresh correlation id is given its deadline. -/
theorem Timely.encoded (h : Timely c s) {request correlationId timeout : Nat}
    (hfresh : correlationId ∉ s.rpc.issued) (htimeout : s.timeouts.get? request = some timeout) :
    Timely c { s with
      rpc := s.rpc.register request correlationId
      deadlines := s.deadlines.set correlationId (s.now + timeout)
      due := s.due.set correlationId (s.now + Timer.delay timeout) } := by
  obtain ⟨hpositive, hrange⟩ := h.timeout request timeout htimeout
  have hkept : ∀ k deadline, s.deadlines.get? k = some deadline →
      (s.deadlines.set correlationId (s.now + timeout)).get? k = some deadline := by
    intro k deadline hk
    refine (OrderedMap.get?_set _ _ _ _).trans ((if_neg ?_).trans hk)
    rintro rfl
    exact hfresh (h.deadline k deadline hk).2
  refine ⟨h.forward, h.timeout, fun k deadline hk => ?_, ?_, fun tag k hk => ?_, fun x hx => ?_,
    fun x hx => ?_⟩
  · dsimp only at hk
    rw [OrderedMap.get?_set] at hk
    split at hk
    · next heq =>
      cases hk
      exact ⟨add_pos_of_nonneg_of_pos h.forward (Nat.cast_pos.mpr hpositive),
        OrderedMap.mem_set.mpr (.inl heq)⟩
    · exact (h.deadline k deadline hk).imp_right fun hmem => OrderedMap.mem_set.mpr (.inr hmem)
  · dsimp only
    rw [Timer.delay_natCast (Nat.le_pred_of_lt hrange), Nat.max_eq_right hpositive, h.due]
  · obtain ⟨deadline, request, hdeadline, hrequest⟩ := h.origin tag k hk
    exact ⟨deadline, request, hkept k deadline hdeadline, hrequest⟩
  · obtain ⟨deadline, hdeadline, hle⟩ := h.started x hx
    exact ⟨deadline, hkept _ deadline hdeadline, hle⟩
  · obtain ⟨deadline, hdeadline, hle⟩ := h.expired x hx
    exact ⟨deadline, hkept _ deadline hdeadline, hle⟩

/-- A handler that was called was called in time. -/
theorem started_in_time {request : Respond.Request} {now deadline : ℚ} (hpositive : 0 < deadline)
    (hdeadline : request.deadline = some deadline) (hran : (Respond.Call.begin request now).ran) :
    now ≤ deadline := by
  refine not_lt.mp fun hpast => ?_
  have hstale : request.Stale now := ⟨deadline, hdeadline, hpositive.ne', hpast⟩
  rw [Respond.Call.begin, if_pos hstale] at hran
  cases hran

variable [DecidableEq α] [ToString α] {env : ConsumePipeline.Env α}

theorem Timely.delivers (h : Timely c s) (hserved : Served c s) {subscription correlationId : Nat}
    {message : RabbitMQ.Message α} {deadline : ℚ} {respond : Respond.State α}
    (hdeadline : s.deadlines.get? correlationId = some deadline)
    (hs : Respond.Steps env s.respond (.deliver subscription message true (some deadline)) respond) :
    Timely c { s with respond, origins := s.origins.set message.tag correlationId } := by
  have hkept : ∀ tag ∈ s.origins, respond.requests.get? tag = s.respond.requests.get? tag :=
    fun tag hmem => hs.requests (hserved.known tag (.inl hmem))
  refine ⟨h.forward, h.timeout, h.deadline, h.due, fun tag k hk => ?_, h.started, h.expired⟩
  dsimp only at hk
  rw [OrderedMap.get?_set] at hk
  split at hk
  · next heq =>
    cases hk
    cases hs with
    | @deliver _ _ _ _ replyOnError pipeline hresponder hp =>
      refine ⟨deadline, ⟨true, some deadline, replyOnError⟩, hdeadline, ?_, rfl⟩
      rw [heq]
      exact OrderedMap.get?_set_self _ _ _
  · obtain ⟨d, request, hd, hrequest, hread⟩ := h.origin tag k hk
    exact ⟨d, request, hd, (hkept tag (OrderedMap.mem_of_get? hk)).trans hrequest, hread⟩

theorem Timely.invoked (h : Timely c s) {tag : Nat} {respond : Respond.State α}
    (hs : Respond.Steps env s.respond (.invoked tag (s.now + c.skew)) respond) :
    Timely c { s with
      respond
      started := s.started ++ (State.startedFor { s with respond } tag).toList.map
        fun correlationId => ⟨correlationId, tag, s.now⟩ } := by
  cases hs with
  | @invoked _ _ request pipeline hrequest hp =>
    refine ⟨h.forward, h.timeout, h.deadline, h.due, h.origin, fun x hx => ?_, h.expired⟩
    rcases List.mem_append.mp hx with hx | hx
    · exact h.started x hx
    · obtain ⟨k, hk, rfl⟩ := List.mem_map.mp hx
      have hstarted := Option.mem_toList.mp hk
      simp only [State.startedFor, OrderedMap.get?_set_self, Option.any_some] at hstarted
      obtain ⟨hran, horigin⟩ := Option.ite_none_right_eq_some.mp hstarted
      obtain ⟨deadline, request', hdeadline, hrequest', hread⟩ := h.origin tag k horigin
      cases hrequest.symm.trans hrequest'
      exact ⟨deadline, hdeadline,
        started_in_time (h.deadline k deadline hdeadline).1 hread hran⟩

theorem Steps.timely {event : Event α V Bytes} (hs : Steps c env s event s')
    (hwaitable : Waitable s (env, event)) (hserved : Served c s) (h : Timely c s) :
    Timely c s' := by
  have hissued : ∀ {event rpc}, Rpc.step s.rpc event = some rpc →
      ∀ k ∈ s.rpc.issued, k ∈ rpc.issued :=
    fun hrpc _ => (Rpc.step_cases hrpc).issued
  have hrequests : ∀ {event respond}, Respond.step s.respond (env, event) = some respond →
      ∀ tag ∈ s.origins, respond.requests.get? tag = s.respond.requests.get? tag :=
    fun hs tag hmem => (Respond.step_cases hs).requests (hserved.known tag (.inl hmem))
  cases hs with
  | tick hforward =>
    exact ⟨add_nonneg h.forward hforward, h.timeout, h.deadline, h.due, h.origin, h.started,
      h.expired⟩
  | @request request timeout rpc hrpc =>
    have hnext : Timely c { s with rpc } := h.requests (hissued hrpc)
    refine { hnext with timeout := fun r t ht => ?_ }
    dsimp only at ht
    split at ht
    · exact h.timeout r t ht
    · next hpositive =>
      rw [OrderedMap.get?_set] at ht
      split at ht
      · cases ht
        refine ⟨Nat.pos_of_ne_zero fun hzero => hpositive ?_, hwaitable⟩
        cases timeout with
        | none => cases hzero
        | some timeout => exact congrArg some hzero
      · exact h.timeout r t ht
  | requester _ hrpc | encodeFails hrpc | replyArrives _ hrpc | strayArrives _ hrpc
  | decoded _ _ hrpc => exact h.requests (hissued hrpc)
  | encoded htimeout hrpc =>
    cases Rpc.step_cases hrpc with
    | encoded _ hunique => exact h.encoded hunique htimeout
  | @timerFires handle timer due rpc htimer hdue hpast hrpc =>
    have hnext : Timely c { s with rpc } := h.requests (hissued hrpc)
    refine { hnext with expired := fun x hx => ?_ }
    rcases List.mem_append.mp hx with hx | hx
    · exact h.expired x hx
    · rw [List.mem_singleton.mp hx]
      exact ⟨due, h.due ▸ hdue, hpast⟩
  | delivers hdeadline hs => exact h.delivers hserved hdeadline (Respond.step_cases hs)
  | invoked hs => exact h.invoked (Respond.step_cases hs)
  | responder hs | respond hs | deliversOther hs | handled hs | published _ _ _ _ hs | awaited hs
  | returned hs => exact h.responds (hrequests hs)

/-- No handler is called for a request whose timer has fired: it was called by then, by as much as
the clock of the responders is ahead. -/
theorem no_handler_starts_late (hr : Reach (step c) Waitable start s) {x : Started} {instant : ℚ}
    (hstarted : x ∈ s.started) (hexpired : (x.correlationId, instant) ∈ s.expired) :
    x.instant + c.skew ≤ instant := by
  have htimely : Timely c s := hr.invariant_of served timely_start
    fun hserved _ h hwaitable hs => (step_cases hs).timely hwaitable hserved h
  obtain ⟨deadline, hdeadline, hle⟩ := htimely.started x hstarted
  obtain ⟨deadline', hdeadline', hpast⟩ := htimely.expired _ hexpired
  cases hdeadline.symm.trans hdeadline'
  exact hle.trans hpast

/-- One delivery of a request is in time, the other is not. -/
private def timedOut : List (ConsumePipeline.Env String × Event String Bool (List UInt16)) :=
  [.request 1 (some 100), .requester (.preflighted 1 true true),
    .requester (.channelOpened (some 7)), .requester (.consumed true), .tick 3,
    .encoded 1 (some 10), .respond 0 3 false .once false, .delivers 0 { tag := 1 } 10,
    .delivers 0 { tag := 2 } 10, .tick 90, .invoked 1, .tick 15, .timerFires 0,
    .invoked 2].map (ConsumePipeline.Env.calm, ·)

theorem no_handler_starts_late_timedOut : ∃ s : State String Bool (List UInt16),
    Reach (step (booleans 2)) Waitable start s ∧ s.started = [⟨10, 1, 93⟩] ∧
      (93 : ℚ) + (booleans 2).skew ≤ 108 := by
  have hrun : (run (step (booleans 2)) Waitable start timedOut).any fun s => decide
      (s.started = [⟨10, 1, 93⟩] ∧ s.expired = [(10, 108)]) := by decide +kernel
  obtain ⟨s, hs, h⟩ := (Option.any_eq_true _ _).mp hrun
  obtain ⟨hstarted, hexpired⟩ := of_decide_eq_true h
  have hr := reach_of_run hs
  refine ⟨s, hr, hstarted, ?_⟩
  exact no_handler_starts_late (x := ⟨10, 1, 93⟩) hr (hstarted ▸ List.mem_singleton_self _)
    (hexpired ▸ List.mem_singleton_self _)

end Conversation
end RabbitMQ

import RabbitMQ.Messaging.Rpc.Conversation

/-! The requester's end of a conversation: only a decoded reply answers a request, and only a reply
that was handed to a channel is decoded. -/

namespace RabbitMQ
namespace Rpc

/-- The settlements that a reply brings. -/
def Outcome.answered : Outcome → Bool
  | .resolved | .rejected .responder | .rejected .decode => true
  | .rejected _ => false

def State.answers (s : State) : List Settlement := s.settled.filter (·.outcome.answered)

/-- The step hears no reply. -/
structure Unanswered (s s' : State) : Prop where
  decoding : s'.decoding = s.decoding
  issued : s'.issued = s.issued
  answers : s'.answers = s.answers

variable {s s' s'' : State}

theorem Unanswered.refl (s : State) : Unanswered s s := ⟨rfl, rfl, rfl⟩

theorem Unanswered.trans (h : Unanswered s s') (h' : Unanswered s' s'') : Unanswered s s'' :=
  ⟨h'.decoding.trans h.decoding, h'.issued.trans h.issued, h'.answers.trans h.answers⟩

theorem unanswered_settle (s : State) (request : Nat) (cause : Option Nat) {outcome : Outcome}
    (h : outcome.answered = false) : Unanswered s (s.settle request cause outcome) := by
  refine ⟨rfl, rfl, ?_⟩
  change (s.settled ++ [_]).filter _ = s.settled.filter _
  rw [List.filter_append, List.filter_cons_of_neg (by simp [h]), List.filter_nil, List.append_nil]

theorem unanswered_settlePending (s : State) (correlationId : Nat) (cause : Option Nat)
    {outcome : Outcome} (h : outcome.answered = false) :
    Unanswered s (s.settlePending correlationId cause outcome) := by
  unfold State.settlePending
  split
  · exact .refl s
  · next pending _ =>
    have hcleared : Unanswered s { s with
        pendingRequests := s.pendingRequests.erase correlationId
        timers := s.timers.erase pending.timer } := ⟨rfl, rfl, rfl⟩
    exact hcleared.trans (unanswered_settle _ _ _ h)

theorem unanswered_rejectAllPending (s : State) : Unanswered s s.rejectAllPending := by
  have hturns : Unanswered s
      ((s.pendingRequests.entries.map Prod.snd).foldl State.rejectPending s) := by
    refine List.foldlRecOn (motive := Unanswered s) _ _ (.refl s) fun t ht pending _ => ?_
    have hcleared : Unanswered t { t with timers := t.timers.erase pending.timer } := ⟨rfl, rfl, rfl⟩
    exact (ht.trans hcleared).trans (unanswered_settle _ _ _ rfl)
  exact hturns.trans ⟨rfl, rfl, rfl⟩

theorem unanswered_detachReplyListeners (s : State) : Unanswered s s.detachReplyListeners := by
  unfold State.detachReplyListeners
  split
  · exact .refl s
  · exact ⟨rfl, rfl, rfl⟩

theorem unanswered_handleConnectionLoss (s : State) : Unanswered s s.handleConnectionLoss := by
  have hepoch : Unanswered s { s with connectionEpoch := s.connectionEpoch + 1 } := ⟨rfl, rfl, rfl⟩
  have hgone : Unanswered s { { s with
      connectionEpoch := s.connectionEpoch + 1 }.detachReplyListeners with replyChannel := none } :=
    (hepoch.trans (unanswered_detachReplyListeners _)).trans ⟨rfl, rfl, rfl⟩
  exact hgone.trans (unanswered_rejectAllPending _)

theorem unanswered_invalidateReplyChannel (s : State) (channel : Nat) :
    Unanswered s (s.invalidateReplyChannel channel) := by
  unfold State.invalidateReplyChannel
  split
  · exact .refl s
  · have hgone : Unanswered s { s.detachReplyListeners with replyChannel := none } :=
      (unanswered_detachReplyListeners s).trans ⟨rfl, rfl, rfl⟩
    exact hgone.trans (unanswered_rejectAllPending _)

theorem unanswered_preflighted (s : State) (request : Nat) (hasPool : Bool) :
    Unanswered s (s.preflighted request hasPool) := by
  unfold State.preflighted
  repeat' split
  all_goals exact ⟨rfl, rfl, rfl⟩

theorem unanswered_consumed (s : State) (epoch channel : Nat) :
    Unanswered s (s.consumed epoch channel) := by
  have hlistening : Unanswered s { s with
      listening := channel :: s.listening
      replyListeners := some channel } := ⟨rfl, rfl, rfl⟩
  unfold State.consumed
  dsimp only
  split
  · exact (hlistening.trans (unanswered_detachReplyListeners _)).trans ⟨rfl, rfl, rfl⟩
  · exact ⟨rfl, rfl, rfl⟩

/-- The events in which no reply is heard and no correlation id is given out. -/
def Event.silent : Event → Bool
  | .encoded _ (some _) | .reply _ _ _ | .decoded _ _ => false
  | _ => true

theorem Steps.unanswered {event : Event} (hs : Steps s event s') (hsilent : event.silent) :
    Unanswered s s' := by
  cases hs with
  | request | preflightFails | encodeFails | channelOpened | channelFails | consumeFails
  | published => exact ⟨rfl, rfl, rfl⟩
  | preflighted => exact unanswered_preflighted _ _ _
  | consumed => exact unanswered_consumed _ _ _
  | encoded | reply | decoded => cases hsilent
  | cancelled | closed => exact unanswered_invalidateReplyChannel _ _
  | returned => exact unanswered_settlePending _ _ _ rfl
  | returnedUnknown => exact .refl s
  | connectionLost => exact unanswered_handleConnectionLoss s
  | @timerFires handle timer =>
    have hcleared : Unanswered s { s with
        timers := s.timers.erase handle
        pendingRequests := s.pendingRequests.erase timer.correlationId } := ⟨rfl, rfl, rfl⟩
    exact hcleared.trans (unanswered_settle _ _ _ rfl)
  | @publishFails correlationId =>
    have hpublished : Unanswered s { s with
        publishing := s.publishing.erase correlationId } := ⟨rfl, rfl, rfl⟩
    exact hpublished.trans (unanswered_settlePending _ _ _ rfl)

end Rpc

namespace Conversation

open Transition
open MessageCodec (decode isCompressed)

variable {α V Bytes : Type} {c : Config V Bytes} {s s' : State α V Bytes}

theorem bare_silent {event : Rpc.Event} (h : bare event) : event.silent := by
  cases event <;> first | rfl | cases h

theorem answer_outcome (reply : Reply Bytes) (content : Except MessageCodec.DecodeError
    (MessageCodec.Json V)) : (answer reply content).outcome =
      if content.isOk then if reply.isError then .rejected .responder else .resolved
      else .rejected .decode := by
  cases content with
  | ok content =>
    change (if reply.isError then Answer.refused content else .resolved content).outcome = _
    split <;> simp_all [Answer.outcome, Except.isOk, Except.toBool]
  | error => rfl

theorem answer_answered (answer : Answer V) : answer.outcome.answered := by
  cases answer <;> rfl

/-- What the requester knows of replies comes from one that was sent. -/
structure Heard (c : Config V Bytes) (s : State α V Bytes) : Prop where
  arriving : ∀ k d, s.rpc.decoding.get? k = some d → ∃ reply ∈ s.replies,
    s.arriving.get? k = some reply ∧ reply.correlationId = k ∧ d.rpcError = reply.isError
  answered : ∀ a ∈ s.answers, s.rpc.issued.get? a.correlationId = some a.request ∧
    ∃ reply ∈ s.replies, reply.correlationId = a.correlationId ∧
      a.answer = answer reply (decode c.node c.requester reply.content (isCompressed reply.headers))
  settled : s.rpc.answers = s.answers.map Answered.settlement

theorem heard_start : Heard c (start : State α V Bytes) := ⟨nofun, nofun, rfl⟩

theorem Heard.silent (h : Heard c s) {rpc : Rpc.State} (hrpc : Rpc.Unanswered s.rpc rpc)
    (hs' : s'.rpc = rpc) (hreplies : s'.replies = s.replies) (harriving : s'.arriving = s.arriving)
    (hanswers : s'.answers = s.answers) : Heard c s' := by
  refine ⟨fun k d hd => ?_, fun a ha => ?_, ?_⟩
  · rw [hs', hrpc.decoding] at hd
    rw [hreplies, harriving]
    exact h.arriving k d hd
  · rw [hanswers] at ha
    rw [hs', hrpc.issued, hreplies]
    exact h.answered a ha
  · rw [hs', hrpc.answers, hanswers]
    exact h.settled

/-- Steps of the responders can only add replies. -/
theorem Heard.responds (h : Heard c s) (hrpc : s'.rpc = s.rpc)
    (hreplies : ∀ reply ∈ s.replies, reply ∈ s'.replies) (harriving : s'.arriving = s.arriving)
    (hanswers : s'.answers = s.answers) : Heard c s' := by
  refine ⟨fun k d hd => ?_, fun a ha => ?_, ?_⟩
  · obtain ⟨reply, hmem, hreply⟩ := h.arriving k d (hrpc ▸ hd)
    exact ⟨reply, hreplies reply hmem, harriving ▸ hreply⟩
  · obtain ⟨hissued, reply, hmem, hreply⟩ := h.answered a (hanswers ▸ ha)
    exact ⟨hrpc ▸ hissued, reply, hreplies reply hmem, hreply⟩
  · rw [hrpc, hanswers]
    exact h.settled

theorem Heard.registers (h : Heard c s) {request correlationId : Nat}
    (hunique : correlationId ∉ s.rpc.issued) (hrpc : s'.rpc = s.rpc.register request correlationId)
    (hreplies : s'.replies = s.replies) (harriving : s'.arriving = s.arriving)
    (hanswers : s'.answers = s.answers) : Heard c s' := by
  refine ⟨fun k d hd => ?_, fun a ha => ?_, ?_⟩
  · rw [hrpc] at hd
    rw [hreplies, harriving]
    exact h.arriving k d hd
  · rw [hanswers] at ha
    obtain ⟨hissued, hreply⟩ := h.answered a ha
    rw [hrpc, hreplies]
    refine ⟨(OrderedMap.get?_set _ _ _ _).trans ((if_neg ?_).trans hissued), hreply⟩
    rintro heq
    exact hunique (heq ▸ OrderedMap.mem_of_get? hissued)
  · rw [hrpc, hanswers]
    exact h.settled

theorem Heard.replyArrives (h : Heard c s) {i : Nat} {reply : Reply Bytes}
    (hreply : s.replies[i]? = some reply)
    (hrpc : s'.rpc = s.rpc.handleReply (some reply.correlationId) reply.isError)
    (hreplies : s'.replies = s.replies) (hanswers : s'.answers = s.answers)
    (harriving : s'.arriving = if reply.correlationId ∈ s.rpc.pendingRequests then
      s.arriving.set reply.correlationId reply else s.arriving) : Heard c s' := by
  cases hp : s.rpc.pendingRequests.get? reply.correlationId with
  | none =>
    rw [if_neg (OrderedMap.not_mem_iff.mpr hp)] at harriving
    have hsame : s'.rpc = s.rpc := by
      rw [hrpc]
      simp only [Rpc.State.handleReply, hp]
    exact h.silent (.refl _) hsame hreplies harriving hanswers
  | some pending =>
    rw [if_pos (OrderedMap.mem_of_get? hp)] at harriving
    have hdecodes : s'.rpc = { s.rpc with
        pendingRequests := s.rpc.pendingRequests.erase reply.correlationId
        timers := s.rpc.timers.erase pending.timer
        decoding := s.rpc.decoding.set reply.correlationId ⟨pending.request, reply.isError⟩ } := by
      rw [hrpc]
      simp only [Rpc.State.handleReply, hp]
    refine ⟨fun k d hd => ?_, fun a ha => ?_, ?_⟩
    · rw [hdecodes] at hd
      dsimp only at hd
      rw [hreplies, harriving]
      rw [OrderedMap.get?_set] at hd ⊢
      split at hd
      · next heq =>
        cases hd
        exact ⟨reply, List.mem_of_getElem? hreply, if_pos heq, heq.symm, rfl⟩
      · next hne =>
        rw [if_neg hne]
        exact h.arriving k d hd
    · rw [hanswers] at ha
      rw [hdecodes, hreplies]
      exact h.answered a ha
    · rw [hdecodes, hanswers]
      exact h.settled

/-- Nobody else knows a correlation id that was issued. -/
theorem stray_unheard (hkept : Rpc.Kept s.rpc) {correlationId : Option Nat} {rpcError : Bool}
    (hstray : ∀ k, correlationId = some k → k ∉ s.rpc.issued) :
    s.rpc.handleReply correlationId rpcError = s.rpc := by
  unfold Rpc.State.handleReply
  split
  · rfl
  · next k =>
    split
    · rfl
    · next pending hp =>
      exact absurd (OrderedMap.mem_of_get? (hkept.entry k pending hp).1) (hstray k rfl)

theorem Heard.decoded (h : Heard c s) (hkept : Rpc.Kept s.rpc) {k : Nat} {reply : Reply Bytes}
    {d : Rpc.Decoding} (hreply : s.arriving.get? k = some reply)
    (hd : s.rpc.decoding.get? k = some d) {content : Except MessageCodec.DecodeError
      (MessageCodec.Json V)}
    (hcontent : content = decode c.node c.requester reply.content (isCompressed reply.headers))
    (hrpc : s'.rpc = s.rpc.decoded k d content.isOk) (hreplies : s'.replies = s.replies)
    (harriving : s'.arriving = s.arriving)
    (hanswers : s'.answers = s.answers ++ [⟨d.request, k, answer reply content⟩]) :
    Heard c s' := by
  obtain ⟨reply', hmem, harrived, hk, herror⟩ := h.arriving k d hd
  cases hreply.symm.trans harrived
  have hissued := (hkept.decoding k d hd).1
  refine ⟨fun j d' hd' => ?_, fun a ha => ?_, ?_⟩
  · rw [hrpc] at hd'
    dsimp only [Rpc.State.decoded, Rpc.State.settle] at hd'
    rw [OrderedMap.get?_erase] at hd'
    split at hd'
    · cases hd'
    · rw [hreplies, harriving]
      exact h.arriving j d' hd'
  · rw [hanswers] at ha
    rw [hrpc, hreplies]
    rcases List.mem_append.mp ha with ha | ha
    · exact h.answered a ha
    · cases List.mem_singleton.mp ha
      exact ⟨hissued, reply, hmem, hk, by rw [hcontent]⟩
  · have hsettled : s'.rpc.settled = s.rpc.settled ++
        [⟨d.request, some k, (answer reply content).outcome⟩] := by
      rw [hrpc, answer_outcome, ← herror]
      rfl
    have hlast : ([⟨d.request, some k, (answer reply content).outcome⟩] :
        List Rpc.Settlement).filter (·.outcome.answered) =
          [Answered.settlement ⟨d.request, k, answer reply content⟩] :=
      List.filter_cons_of_pos (answer_answered (answer reply content))
    rw [Rpc.State.answers, hsettled, List.filter_append, hlast, hanswers, List.map_append,
      List.map_singleton]
    exact congrArg (· ++ _) h.settled

variable [DecidableEq α] [ToString α] {env : ConsumePipeline.Env α}

theorem Steps.heard {event : Event α V Bytes} (hs : Steps c env s event s')
    (hkept : Rpc.Kept s.rpc) (h : Heard c s) : Heard c s' := by
  cases hs with
  | tick => exact h.responds rfl (fun _ => id) rfl rfl
  | request hrpc =>
    exact h.silent ((Rpc.step_cases hrpc).unanswered rfl) rfl rfl rfl rfl
  | requester hbare hrpc =>
    exact h.silent ((Rpc.step_cases hrpc).unanswered (bare_silent hbare)) rfl rfl rfl rfl
  | encodeFails hrpc => exact h.silent ((Rpc.step_cases hrpc).unanswered rfl) rfl rfl rfl rfl
  | encoded _ hrpc =>
    cases Rpc.step_cases hrpc with
    | encoded _ hunique => exact h.registers hunique rfl rfl rfl rfl
  | timerFires _ _ _ hrpc =>
    exact h.silent ((Rpc.step_cases hrpc).unanswered rfl) rfl rfl rfl rfl
  | replyArrives hreply hrpc =>
    cases Rpc.step_cases hrpc with
    | reply => exact h.replyArrives hreply rfl rfl rfl rfl
  | strayArrives hstray hrpc =>
    cases Rpc.step_cases hrpc with
    | reply => exact h.responds (stray_unheard hkept hstray) (fun _ => id) rfl rfl
  | decoded hreply hd hrpc =>
    cases Rpc.step_cases hrpc with
    | decoded hd' =>
      cases hd.symm.trans hd'
      exact h.decoded hkept hreply hd rfl rfl rfl rfl rfl
  | published =>
    exact h.responds rfl (fun _ hmem => List.mem_append_left _ hmem) rfl rfl
  | responder | respond | delivers | deliversOther | invoked | handled | awaited | returned =>
    exact h.responds rfl (fun _ => id) rfl rfl

/-- The requester of a conversation runs as one does by itself. -/
theorem Steps.rpc {event : Event α V Bytes} (hs : Steps c env s event s') :
    s'.rpc = s.rpc ∨ ∃ e, anyStep s.rpc e ∧ Rpc.step s.rpc e = some s'.rpc := by
  cases hs with
  | request hrpc | requester _ hrpc | encodeFails hrpc | encoded _ hrpc | timerFires _ _ _ hrpc
  | replyArrives _ hrpc | strayArrives _ hrpc | decoded _ _ hrpc => exact .inr ⟨_, trivial, hrpc⟩
  | tick | responder | respond | delivers | deliversOther | invoked | handled | published
  | awaited | returned => exact .inl rfl

theorem requester_reach {ok : State α V Bytes → ConsumePipeline.Env α × Event α V Bytes → Prop}
    (hr : Reach (step c) ok start s) : Reach Rpc.step anyStep Rpc.start s.rpc :=
  hr.project (f := State.rpc) fun _ hs => (step_cases hs).rpc

theorem heard {ok : State α V Bytes → ConsumePipeline.Env α × Event α V Bytes → Prop}
    (hr : Reach (step c) ok start s) : Heard c s :=
  hr.invariant_of (fun hr => Rpc.kept_of_reach (requester_reach hr)) heard_start
    fun hkept _ h _ hs => (step_cases hs).heard hkept h

end Conversation
end RabbitMQ

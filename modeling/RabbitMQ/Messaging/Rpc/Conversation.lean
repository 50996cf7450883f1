import RabbitMQ.Lib.Timer
import RabbitMQ.Lib.Transition
import RabbitMQ.Messaging.MessageCodec
import RabbitMQ.Messaging.Rpc.Respond
import RabbitMQ.Messaging.Rpc.Settlement

/-! A requester and its responders, over a broker. Both ends run the code of `request` and of
`respond`; the broker delivers what was published in any order, any number of times or never, and
makes nothing up. A reply is read by its headers and its content alone, and each end has a clock. -/

namespace RabbitMQ
namespace Conversation

open MessageCodec (Node Codec Json DecodeError HeaderValue buildHeaders isCompressed encode decode)
open Respond (Publication)

structure Config (V Bytes : Type) where
  node : Node V Bytes
  requester : Codec V
  responder : Codec V
  null : V
  /-- `{ message }` -/
  envelope : Value → V
  /-- How far the clock of the responders is ahead. -/
  skew : ℚ

/-- A reply that was handed to a channel. -/
structure Reply (Bytes : Type) where
  correlationId : Nat
  content : Bytes
  headers : OrderedMap String HeaderValue

/-- `headers['x-rpc-error']` -/
def Reply.isError {Bytes : Type} (reply : Reply Bytes) : Bool :=
  (reply.headers.get? "x-rpc-error").any (·.truthy)

/-- The headers of `#publishReply`. -/
def replyHeaders (compressed : Bool) : Publication → OrderedMap String HeaderValue
  | .reply => buildHeaders .empty compressed []
  | .fallback | .envelope => buildHeaders .empty compressed [("x-rpc-error", .boolean true)]

/-- A handler that was called for a request, by the clock of the requester. -/
structure Started where
  correlationId : Nat
  tag : Nat
  instant : ℚ
  deriving DecidableEq

/-- What a handler that was called for a request returned or threw. -/
structure Handled (V Bytes : Type) where
  correlationId : Nat
  tag : Nat
  result : Except Value (MessageCodec.Message V Bytes)

/-- What `#handleReply` settles a request with. -/
inductive Answer (V : Type) where
  | resolved (content : Json V)
  /-- RPC_RESPONDER_ERROR, with `content?.message` -/
  | refused (content : Json V)
  | undecodable (error : DecodeError)
  deriving DecidableEq

structure Answered (V : Type) where
  request : Nat
  correlationId : Nat
  answer : Answer V
  deriving DecidableEq

def Answer.outcome {V : Type} : Answer V → Rpc.Outcome
  | .resolved _ => .resolved
  | .refused _ => .rejected .responder
  | .undecodable _ => .rejected .decode

def Answered.settlement {V : Type} (a : Answered V) : Rpc.Settlement :=
  ⟨a.request, some a.correlationId, a.answer.outcome⟩

variable {α V Bytes : Type}

structure State (α V Bytes : Type) where
  /-- the clock of the requester -/
  now : ℚ
  rpc : Rpc.State
  /-- `timeout`, by request -/
  timeouts : OrderedMap Nat Nat
  /-- `x-rpc-deadline`, by correlation id -/
  deadlines : OrderedMap Nat ℚ
  /-- when the timer of a correlation id is due -/
  due : OrderedMap Nat ℚ
  respond : Respond.State α
  /-- the correlation ids of the deliveries that are requests -/
  origins : OrderedMap Nat Nat
  /-- what the handlers returned, by delivery -/
  results : OrderedMap Nat (MessageCodec.Message V Bytes)
  replies : List (Reply Bytes)
  /-- the replies that `#handleReply` decodes -/
  arriving : OrderedMap Nat (Reply Bytes)
  started : List Started
  handled : List (Handled V Bytes)
  answers : List (Answered V)
  /-- the timers that fired, by correlation id, and when -/
  expired : List (Nat × ℚ)

def start : State α V Bytes :=
  ⟨0, Rpc.start, .empty, .empty, .empty, Respond.start, .empty, .empty, [], .empty, [], [], [], []⟩

/-- `payload === undefined ? null : payload` -/
def normalized (c : Config V Bytes) : MessageCodec.Message V Bytes → MessageCodec.Message V Bytes
  | .undefined => .json (.value c.null)
  | m => m

/-- What `#publishReply` encodes. -/
def payload (c : Config V Bytes) (result : Option (MessageCodec.Message V Bytes))
    (call : Respond.Call) : Publication → Option (MessageCodec.Message V Bytes)
  | .reply => result.map (normalized c)
  | .envelope =>
    match call.handler with
    | some (.error error) =>
      (describeError error).toOption.map fun shown => .json (.value (c.envelope shown))
    | _ => none
  | .fallback =>
    call.failures.head?.bind fun error => (describedText error).toOption.map fun text =>
      .json (.value (c.envelope (.string ("Failed to publish RPC reply: " ++ text))))

def withResult (results : OrderedMap Nat (MessageCodec.Message V Bytes)) (tag : Nat) :
    Except Value (MessageCodec.Message V Bytes) → OrderedMap Nat (MessageCodec.Message V Bytes)
  | .ok m => results.set tag m
  | .error _ => results

/-- `#handleReply` after `decode`. -/
def answer (reply : Reply Bytes) : Except DecodeError (Json V) → Answer V
  | .ok content => if reply.isError then .refused content else .resolved content
  | .error error => .undecodable error

inductive Event (α V Bytes : Type) where
  | tick (elapsed : ℚ)
  | request (request : Nat) (timeout : Option Nat)
  /-- a step of the requester in which no clock is read and no reply arrives -/
  | requester (event : Rpc.Event)
  | encoded (request : Nat) (correlationId : Option Nat)
  | timerFires (handle : Nat)
  /-- the broker delivers one of the replies -/
  | replyArrives (channel reply : Nat)
  /-- a message of somebody else on the reply queue -/
  | strayArrives (channel : Nat) (correlationId : Option Nat) (rpcError : Bool)
  | decoded (correlationId : Nat)
  /-- a step of the responders' consumers that is not about one of their calls -/
  | responder (event : ConsumePipeline.Event α)
  | respond (id channel : Nat) (noAck : Bool) (retryPolicy : RetryPolicy) (replyOnError : Bool)
  /-- the broker delivers one of the requests -/
  | delivers (id : Nat) (message : RabbitMQ.Message α) (correlationId : Nat)
  /-- a message of somebody else on the queue of a responder -/
  | deliversOther (id : Nat) (message : RabbitMQ.Message α) (replyTo : Bool) (deadline : Option ℚ)
  | invoked (tag : Nat)
  | handled (tag : Nat) (result : Except Value (MessageCodec.Message V Bytes))
  /-- the await of `#publishReply` settles; what it throws is the codec's choice when it encodes -/
  | publishes (tag : Nat) (error : Option Value) (gzipFails : Bool)
  | returned (tag : Nat)

/-- A step of the requester that the conversation has nothing to add to. -/
def bare : Rpc.Event → Bool
  | .request _ _ | .encoded _ _ | .reply _ _ _ | .decoded _ _ | .timerFires _ => false
  | _ => true

/-- The correlation id of a delivery of which the callback has called its handler. -/
def State.startedFor (s : State α V Bytes) (tag : Nat) : Option Nat :=
  if (s.respond.calls.get? tag).any (·.ran) then s.origins.get? tag else none

variable [DecidableEq α] [ToString α]

def step (c : Config V Bytes) (s : State α V Bytes)
    (input : ConsumePipeline.Env α × Event α V Bytes) : Option (State α V Bytes) :=
  let (env, event) := input
  match event with
  | .tick elapsed => if 0 ≤ elapsed then some { s with now := s.now + elapsed } else none
  | .request request timeout =>
    (Rpc.step s.rpc (.request request timeout)).map fun rpc => { s with
      rpc
      timeouts := if timeout = some 0 then s.timeouts
        else s.timeouts.set request (timeout.getD 30000) }
  | .requester event =>
    if bare event then (Rpc.step s.rpc event).map fun rpc => { s with rpc } else none
  | .encoded request none =>
    (Rpc.step s.rpc (.encoded request none)).map fun rpc => { s with rpc }
  | .encoded request (some correlationId) =>
    (s.timeouts.get? request).bind fun timeout =>
      (Rpc.step s.rpc (.encoded request (some correlationId))).map fun rpc => { s with
        rpc
        deadlines := s.deadlines.set correlationId (s.now + timeout)
        due := s.due.set correlationId (s.now + Timer.delay timeout) }
  | .timerFires handle =>
    (s.rpc.timers.get? handle).bind fun timer =>
      (s.due.get? timer.correlationId).bind fun due =>
        if s.now < due then none
        else (Rpc.step s.rpc (.timerFires handle)).map fun rpc => { s with
          rpc
          expired := s.expired ++ [(timer.correlationId, s.now)] }
  | .replyArrives channel i =>
    (s.replies[i]?).bind fun reply =>
      (Rpc.step s.rpc (.reply channel (some reply.correlationId) reply.isError)).map fun rpc =>
        { s with
          rpc
          arriving := if reply.correlationId ∈ s.rpc.pendingRequests then
            s.arriving.set reply.correlationId reply else s.arriving }
  | .strayArrives channel correlationId rpcError =>
    -- correlation ids are random: nobody else has one that was issued
    if correlationId.any (· ∈ s.rpc.issued) then none
    else (Rpc.step s.rpc (.reply channel correlationId rpcError)).map fun rpc => { s with rpc }
  | .decoded correlationId =>
    (s.arriving.get? correlationId).bind fun reply =>
      (s.rpc.decoding.get? correlationId).bind fun d =>
        let content := decode c.node c.requester reply.content (isCompressed reply.headers)
        (Rpc.step s.rpc (.decoded correlationId content.isOk)).map fun rpc => { s with
          rpc
          answers := s.answers ++ [⟨d.request, correlationId, answer reply content⟩] }
  | .responder event =>
    (Respond.step s.respond (env, .pipeline event)).map fun respond => { s with respond }
  | .respond id channel noAck retryPolicy replyOnError =>
    (Respond.step s.respond (env, .respond id channel noAck retryPolicy replyOnError)).map
      fun respond => { s with respond }
  | .delivers id message correlationId =>
    (s.deadlines.get? correlationId).bind fun deadline =>
      (Respond.step s.respond (env, .deliver id message true (some deadline))).map fun respond =>
        { s with respond, origins := s.origins.set message.tag correlationId }
  | .deliversOther id message replyTo deadline =>
    (Respond.step s.respond (env, .deliver id message replyTo deadline)).map fun respond =>
      { s with respond }
  | .invoked tag =>
    (Respond.step s.respond (env, .invoked tag (s.now + c.skew))).map fun respond =>
      let s := { s with respond }
      { s with started := s.started ++
        (s.startedFor tag).toList.map fun correlationId => ⟨correlationId, tag, s.now⟩ }
  | .handled tag result =>
    (Respond.step s.respond (env, .handled tag (result.map fun _ => ()))).map fun respond => { s with
      respond
      results := withResult s.results tag result
      handled := s.handled ++
        (s.origins.get? tag).toList.map fun correlationId => ⟨correlationId, tag, result⟩ }
  | .publishes tag error gzipFails =>
    (s.respond.calls.get? tag).bind fun call =>
      match call.stage with
      | .publishing publication .encode =>
        (payload c (s.results.get? tag) call publication).bind fun m =>
          match encode c.node c.responder gzipFails m, error with
          | .ok encoded, none =>
            (Respond.step s.respond (env, .publishes tag (.ok ()))).map fun respond => { s with
              respond
              replies := s.replies ++ (s.origins.get? tag).toList.map fun correlationId =>
                ⟨correlationId, encoded.content, replyHeaders encoded.compressed publication⟩ }
          | .error _, some error =>
            (Respond.step s.respond (env, .publishes tag (.error error))).map fun respond =>
              { s with respond }
          | _, _ => none
      | _ =>
        let result := match error with
          | none => .ok ()
          | some error => .error error
        (Respond.step s.respond (env, .publishes tag result)).map fun respond => { s with respond }
  | .returned tag =>
    (Respond.step s.respond (env, .returned tag)).map fun respond => { s with respond }

/-- What a step can be, with the steps of the two ends that it takes. -/
inductive Steps (c : Config V Bytes) (env : ConsumePipeline.Env α) (s : State α V Bytes) :
    Event α V Bytes → State α V Bytes → Prop
  | tick {elapsed} (hforward : 0 ≤ elapsed) :
      Steps c env s (.tick elapsed) { s with now := s.now + elapsed }
  | request {request timeout rpc} (hs : Rpc.step s.rpc (.request request timeout) = some rpc) :
      Steps c env s (.request request timeout) { s with
        rpc
        timeouts := if timeout = some 0 then s.timeouts
          else s.timeouts.set request (timeout.getD 30000) }
  | requester {event rpc} (hbare : bare event) (hs : Rpc.step s.rpc event = some rpc) :
      Steps c env s (.requester event) { s with rpc }
  | encodeFails {request rpc} (hs : Rpc.step s.rpc (.encoded request none) = some rpc) :
      Steps c env s (.encoded request none) { s with rpc }
  | encoded {request correlationId timeout rpc} (htimeout : s.timeouts.get? request = some timeout)
      (hs : Rpc.step s.rpc (.encoded request (some correlationId)) = some rpc) :
      Steps c env s (.encoded request (some correlationId)) { s with
        rpc
        deadlines := s.deadlines.set correlationId (s.now + timeout)
        due := s.due.set correlationId (s.now + Timer.delay timeout) }
  | timerFires {handle timer due rpc} (htimer : s.rpc.timers.get? handle = some timer)
      (hdue : s.due.get? timer.correlationId = some due) (hpast : due ≤ s.now)
      (hs : Rpc.step s.rpc (.timerFires handle) = some rpc) :
      Steps c env s (.timerFires handle) { s with
        rpc
        expired := s.expired ++ [(timer.correlationId, s.now)] }
  | replyArrives {channel i reply rpc} (hreply : s.replies[i]? = some reply)
      (hs : Rpc.step s.rpc (.reply channel (some reply.correlationId) reply.isError) = some rpc) :
      Steps c env s (.replyArrives channel i) { s with
        rpc
        arriving := if reply.correlationId ∈ s.rpc.pendingRequests then
          s.arriving.set reply.correlationId reply else s.arriving }
  | strayArrives {channel correlationId rpcError rpc}
      (hstray : ∀ k, correlationId = some k → k ∉ s.rpc.issued)
      (hs : Rpc.step s.rpc (.reply channel correlationId rpcError) = some rpc) :
      Steps c env s (.strayArrives channel correlationId rpcError) { s with rpc }
  | decoded {correlationId reply d rpc} (hreply : s.arriving.get? correlationId = some reply)
      (hd : s.rpc.decoding.get? correlationId = some d)
      (hs : Rpc.step s.rpc (.decoded correlationId
        (decode c.node c.requester reply.content (isCompressed reply.headers)).isOk) = some rpc) :
      Steps c env s (.decoded correlationId) { s with
        rpc
        answers := s.answers ++ [⟨d.request, correlationId, answer reply
          (decode c.node c.requester reply.content (isCompressed reply.headers))⟩] }
  | responder {event respond} (hs : Respond.step s.respond (env, .pipeline event) = some respond) :
      Steps c env s (.responder event) { s with respond }
  | respond {id channel noAck retryPolicy replyOnError respond}
      (hs : Respond.step s.respond
        (env, .respond id channel noAck retryPolicy replyOnError) = some respond) :
      Steps c env s (.respond id channel noAck retryPolicy replyOnError) { s with respond }
  | delivers {id message correlationId deadline respond}
      (hdeadline : s.deadlines.get? correlationId = some deadline)
      (hs : Respond.step s.respond (env, .deliver id message true (some deadline)) =
        some respond) :
      Steps c env s (.delivers id message correlationId)
        { s with respond, origins := s.origins.set message.tag correlationId }
  | deliversOther {id message replyTo deadline respond}
      (hs : Respond.step s.respond (env, .deliver id message replyTo deadline) = some respond) :
      Steps c env s (.deliversOther id message replyTo deadline) { s with respond }
  | invoked {tag respond}
      (hs : Respond.step s.respond (env, .invoked tag (s.now + c.skew)) = some respond) :
      Steps c env s (.invoked tag) { s with
        respond
        started := s.started ++ (State.startedFor { s with respond } tag).toList.map
          fun correlationId => ⟨correlationId, tag, s.now⟩ }
  | handled {tag result respond}
      (hs : Respond.step s.respond (env, .handled tag (result.map fun _ => ())) = some respond) :
      Steps c env s (.handled tag result) { s with
        respond
        results := withResult s.results tag result
        handled := s.handled ++
          (s.origins.get? tag).toList.map fun correlationId => ⟨correlationId, tag, result⟩ }
  | published {tag call publication m gzipFails encoded respond}
      (hcall : s.respond.calls.get? tag = some call)
      (hstage : call.stage = .publishing publication .encode)
      (hpayload : payload c (s.results.get? tag) call publication = some m)
      (hencoded : encode c.node c.responder gzipFails m = .ok encoded)
      (hs : Respond.step s.respond (env, .publishes tag (.ok ())) = some respond) :
      Steps c env s (.publishes tag none gzipFails) { s with
        respond
        replies := s.replies ++ (s.origins.get? tag).toList.map fun correlationId =>
          ⟨correlationId, encoded.content, replyHeaders encoded.compressed publication⟩ }
  | awaited {tag error gzipFails result respond}
      (hs : Respond.step s.respond (env, .publishes tag result) = some respond) :
      Steps c env s (.publishes tag error gzipFails) { s with respond }
  | returned {tag respond} (hs : Respond.step s.respond (env, .returned tag) = some respond) :
      Steps c env s (.returned tag) { s with respond }

theorem step_cases {c : Config V Bytes} {s s' : State α V Bytes}
    {input : ConsumePipeline.Env α × Event α V Bytes} (hs : step c s input = some s') :
    Steps c input.1 s input.2 s' := by
  obtain ⟨env, event⟩ := input
  cases event with
  | tick elapsed =>
    simp only [step] at hs
    split at hs
    · next hforward => cases hs; exact .tick hforward
    · cases hs
  | request request timeout =>
    obtain ⟨rpc, hrpc, rfl⟩ := Option.map_eq_some_iff.mp hs
    exact .request hrpc
  | requester event =>
    simp only [step] at hs
    split at hs
    · next hbare =>
      obtain ⟨rpc, hrpc, rfl⟩ := Option.map_eq_some_iff.mp hs
      exact .requester hbare hrpc
    · cases hs
  | encoded request correlationId =>
    cases correlationId with
    | none =>
      obtain ⟨rpc, hrpc, rfl⟩ := Option.map_eq_some_iff.mp hs
      exact .encodeFails hrpc
    | some correlationId =>
      obtain ⟨timeout, htimeout, hs⟩ := Option.bind_eq_some_iff.mp hs
      obtain ⟨rpc, hrpc, rfl⟩ := Option.map_eq_some_iff.mp hs
      exact .encoded htimeout hrpc
  | timerFires handle =>
    obtain ⟨timer, htimer, hs⟩ := Option.bind_eq_some_iff.mp hs
    obtain ⟨due, hdue, hs⟩ := Option.bind_eq_some_iff.mp hs
    split at hs
    · cases hs
    · next hpast =>
      obtain ⟨rpc, hrpc, rfl⟩ := Option.map_eq_some_iff.mp hs
      exact .timerFires htimer hdue (not_lt.mp hpast) hrpc
  | replyArrives channel i =>
    obtain ⟨reply, hreply, hs⟩ := Option.bind_eq_some_iff.mp hs
    obtain ⟨rpc, hrpc, rfl⟩ := Option.map_eq_some_iff.mp hs
    exact .replyArrives hreply hrpc
  | strayArrives channel correlationId rpcError =>
    simp only [step] at hs
    split at hs
    · cases hs
    · next hnot =>
      obtain ⟨rpc, hrpc, rfl⟩ := Option.map_eq_some_iff.mp hs
      refine .strayArrives (fun k hk hmem => hnot ?_) hrpc
      rw [hk, Option.any_some]
      exact decide_eq_true hmem
  | decoded correlationId =>
    obtain ⟨reply, hreply, hs⟩ := Option.bind_eq_some_iff.mp hs
    obtain ⟨d, hd, hs⟩ := Option.bind_eq_some_iff.mp hs
    obtain ⟨rpc, hrpc, rfl⟩ := Option.map_eq_some_iff.mp hs
    exact .decoded hreply hd hrpc
  | responder event =>
    obtain ⟨respond, hrespond, rfl⟩ := Option.map_eq_some_iff.mp hs
    exact .responder hrespond
  | respond id channel noAck retryPolicy replyOnError =>
    obtain ⟨respond, hrespond, rfl⟩ := Option.map_eq_some_iff.mp hs
    exact .respond hrespond
  | delivers id message correlationId =>
    obtain ⟨deadline, hdeadline, hs⟩ := Option.bind_eq_some_iff.mp hs
    obtain ⟨respond, hrespond, rfl⟩ := Option.map_eq_some_iff.mp hs
    exact .delivers hdeadline hrespond
  | deliversOther id message replyTo deadline =>
    obtain ⟨respond, hrespond, rfl⟩ := Option.map_eq_some_iff.mp hs
    exact .deliversOther hrespond
  | invoked tag =>
    obtain ⟨respond, hrespond, rfl⟩ := Option.map_eq_some_iff.mp hs
    exact .invoked hrespond
  | handled tag result =>
    obtain ⟨respond, hrespond, rfl⟩ := Option.map_eq_some_iff.mp hs
    exact .handled hrespond
  | publishes tag error gzipFails =>
    obtain ⟨call, hcall, hs⟩ := Option.bind_eq_some_iff.mp hs
    split at hs
    · next publication hstage =>
      obtain ⟨m, hpayload, hs⟩ := Option.bind_eq_some_iff.mp hs
      split at hs
      · next encoded hencoded _ _ =>
        obtain ⟨respond, hrespond, rfl⟩ := Option.map_eq_some_iff.mp hs
        exact .published hcall hstage hpayload hencoded hrespond
      · obtain ⟨respond, hrespond, rfl⟩ := Option.map_eq_some_iff.mp hs
        exact .awaited hrespond
      · cases hs
    · obtain ⟨respond, hrespond, rfl⟩ := Option.map_eq_some_iff.mp hs
      exact .awaited hrespond
  | returned tag =>
    obtain ⟨respond, hrespond, rfl⟩ := Option.map_eq_some_iff.mp hs
    exact .returned hrespond

end Conversation
end RabbitMQ

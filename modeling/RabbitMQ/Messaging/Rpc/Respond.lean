import RabbitMQ.Consumers.ConsumePipeline
import Mathlib.Data.Rat.Defs

/-! `respond`: the callback that runs a handler and publishes its answer, as a consumer of the
manager.

The callback is one call for each delivery, which stands still at the handler and at the awaits of
`#publishReply`. What they settle with is an input of the step. The delivery itself is in the hands
of the consume pipeline, which acknowledges it when the callback returns and sends what the
callback throws to its `catch` block. -/

namespace RabbitMQ
namespace Respond

/-- What the callback reads of a delivery, and the option of its responder. `deadline` is
`Number(headers['x-rpc-deadline'])` when that is a number. -/
structure Request where
  replyTo : Bool
  deadline : Option ℚ
  replyOnError : Bool
  deriving DecidableEq

/-- The requester has given up. -/
def Request.Stale (request : Request) (now : ℚ) : Prop :=
  ∃ deadline ∈ request.deadline, deadline ≠ 0 ∧ deadline < now

instance (request : Request) (now : ℚ) : Decidable (request.Stale now) :=
  decidable_of_iff (request.deadline.any fun deadline => decide (deadline ≠ 0 ∧ deadline < now)) <| by
    simp only [Request.Stale, Option.any_eq_true_iff_get, Option.mem_def]
    cases request.deadline <;> simp

/-- What is published to `replyTo`. -/
inductive Publication where
  /-- the result of the handler -/
  | reply
  /-- the error envelope in place of a reply that failed -/
  | fallback
  /-- the error envelope for a handler that threw -/
  | envelope
  deriving DecidableEq

/-- The awaits of `#publishReply`. -/
inductive Leg where
  /-- `await this.getChannel()` -/
  | getChannel
  /-- `await this.codec.encode(...)` -/
  | encode
  /-- `await this.publisher.publishOnChannel(...)` -/
  | confirm
  deriving DecidableEq

inductive Stage where
  /-- `await handler(content, message)` -/
  | handling
  | publishing (publication : Publication) (leg : Leg)
  | resolved
  | rejected (error : Value)

/-- A call of the callback, with what came of its awaits. -/
structure Call where
  request : Request
  invokedAt : ℚ
  stage : Stage
  /-- the handler was called -/
  ran : Bool
  handler : Option (Except Value Unit)
  /-- what was handed to a channel, oldest first -/
  published : List Publication
  confirmed : List Publication
  /-- what `#publishReply` threw, oldest first -/
  failures : List Value

namespace Call

/-- The callback, up to its first await. -/
def begin (request : Request) (now : ℚ) : Call :=
  if request.Stale now then ⟨request, now, .resolved, false, none, [], [], []⟩
  else ⟨request, now, .handling, true, none, [], [], []⟩

/-- The callback after the handler. -/
def handled (c : Call) (result : Except Value Unit) : Call :=
  { c with
    handler := some result
    stage := match result with
      | .ok _ => if c.request.replyTo then .publishing .reply .getChannel else .resolved
      | .error error =>
        if c.request.replyTo ∧ c.request.replyOnError then
          match describeError error with
          | .ok _ => .publishing .envelope .getChannel
          | .error e => .rejected e
        else .rejected error }

/-- `#publishReply` after one of its awaits. -/
def publishes (c : Call) (publication : Publication) : Leg → Call
  | .getChannel => { c with stage := .publishing publication .encode }
  | .encode =>
    { c with
      stage := .publishing publication .confirm
      published := c.published ++ [publication] }
  | .confirm => { c with stage := .resolved, confirmed := c.confirmed ++ [publication] }

/-- The callback after `#publishReply` threw. -/
def fails (c : Call) (publication : Publication) (error : Value) : Call :=
  { c with
    failures := c.failures ++ [error]
    stage := match publication with
      | .reply =>
        match describedText error with
        | .ok _ => .publishing .fallback .getChannel
        | .error e => .rejected e
      | .fallback =>
        match describedText error with
        | .ok _ => .resolved
        | .error e => .rejected e
      | .envelope => .rejected error }

end Call

variable {α : Type}

structure State (α : Type) where
  pipeline : ConsumePipeline.State α
  /-- `replyOnError` of the subscriptions of `respond` -/
  responders : OrderedMap Nat Bool
  /-- their deliveries -/
  requests : OrderedMap Nat Request
  calls : OrderedMap Nat Call

def start : State α := ⟨ConsumePipeline.start, .empty, .empty, .empty⟩

inductive Event (α : Type) where
  /-- a step of the manager that is not the callback's -/
  | pipeline (event : ConsumePipeline.Event α)
  /-- a setup closure of a subscription of `respond` -/
  | respond (id channel : Nat) (noAck : Bool) (retryPolicy : RetryPolicy) (replyOnError : Bool)
  | deliver (id : Nat) (message : Message α) (replyTo : Bool) (deadline : Option ℚ)
  /-- the content was decoded: the callback is called -/
  | invoked (tag : Nat) (now : ℚ)
  | handled (tag : Nat) (result : Except Value Unit)
  /-- the await of `#publishReply` settles -/
  | publishes (tag : Nat) (result : Except Value Unit)
  /-- the callback has settled -/
  | returned (tag : Nat)

/-- The manager decides on the callbacks of other subscriptions only. -/
def State.Passes (s : State α) : ConsumePipeline.Event α → Prop
  | .deliver id _ => id ∉ s.responders
  | .decoded tag | .callbackResolved tag | .callbackRejected tag _ => tag ∉ s.requests
  | _ => True

instance (s : State α) (event : ConsumePipeline.Event α) : Decidable (s.Passes event) := by
  unfold State.Passes
  split <;> infer_instance

variable [DecidableEq α] [ToString α]

def State.piped (s : State α) (env : ConsumePipeline.Env α) (event : ConsumePipeline.Event α) :
    Option (State α) :=
  (ConsumePipeline.step s.pipeline (env, event)).map fun pipeline => { s with pipeline }

def step (s : State α) (input : ConsumePipeline.Env α × Event α) : Option (State α) :=
  let (env, event) := input
  match event with
  | .pipeline event => if s.Passes event then s.piped env event else none
  | .respond id channel noAck retryPolicy replyOnError =>
    (s.piped env (.subscribe id ⟨channel, noAck, retryPolicy, none⟩)).map fun s =>
      { s with responders := s.responders.set id replyOnError }
  | .deliver id message replyTo deadline =>
    (s.responders.get? id).bind fun replyOnError =>
      (s.piped env (.deliver id message)).map fun s =>
        { s with requests := s.requests.set message.tag ⟨replyTo, deadline, replyOnError⟩ }
  | .invoked tag now =>
    (s.requests.get? tag).bind fun request =>
      (s.piped env (.decoded tag)).map fun s =>
        { s with calls := s.calls.set tag (.begin request now) }
  | .handled tag result =>
    (s.calls.get? tag).bind fun c =>
      match c.stage with
      | .handling => some { s with calls := s.calls.set tag (c.handled result) }
      | _ => none
  | .publishes tag result =>
    (s.calls.get? tag).bind fun c =>
      match c.stage with
      | .publishing publication leg =>
        let c := match result with
          | .ok _ => c.publishes publication leg
          | .error error => c.fails publication error
        some { s with calls := s.calls.set tag c }
      | _ => none
  | .returned tag =>
    (s.calls.get? tag).bind fun c =>
      match c.stage with
      | .resolved => s.piped env (.callbackResolved tag)
      | .rejected error => s.piped env (.callbackRejected tag error)
      | _ => none

/-- What a step can be, with the code it runs. -/
inductive Steps (env : ConsumePipeline.Env α) (s : State α) : Event α → State α → Prop
  | pipeline {event pipeline} (hpasses : s.Passes event)
      (hp : ConsumePipeline.step s.pipeline (env, event) = some pipeline) :
      Steps env s (.pipeline event) { s with pipeline }
  | respond {id channel noAck retryPolicy replyOnError pipeline}
      (hp : ConsumePipeline.step s.pipeline
        (env, .subscribe id ⟨channel, noAck, retryPolicy, none⟩) = some pipeline) :
      Steps env s (.respond id channel noAck retryPolicy replyOnError)
        { s with pipeline, responders := s.responders.set id replyOnError }
  | deliver {id message replyTo deadline replyOnError pipeline}
      (hresponder : s.responders.get? id = some replyOnError)
      (hp : ConsumePipeline.step s.pipeline (env, .deliver id message) = some pipeline) :
      Steps env s (.deliver id message replyTo deadline)
        { s with
          pipeline
          requests := s.requests.set message.tag ⟨replyTo, deadline, replyOnError⟩ }
  | invoked {tag now request pipeline} (hrequest : s.requests.get? tag = some request)
      (hp : ConsumePipeline.step s.pipeline (env, .decoded tag) = some pipeline) :
      Steps env s (.invoked tag now)
        { s with pipeline, calls := s.calls.set tag (.begin request now) }
  | handled {tag result c} (hc : s.calls.get? tag = some c) (hstage : c.stage = .handling) :
      Steps env s (.handled tag result) { s with calls := s.calls.set tag (c.handled result) }
  | publishes {tag c publication leg} (hc : s.calls.get? tag = some c)
      (hstage : c.stage = .publishing publication leg) :
      Steps env s (.publishes tag (.ok ()))
        { s with calls := s.calls.set tag (c.publishes publication leg) }
  | fails {tag c publication leg error} (hc : s.calls.get? tag = some c)
      (hstage : c.stage = .publishing publication leg) :
      Steps env s (.publishes tag (.error error))
        { s with calls := s.calls.set tag (c.fails publication error) }
  | resolved {tag c pipeline} (hc : s.calls.get? tag = some c) (hstage : c.stage = .resolved)
      (hp : ConsumePipeline.step s.pipeline (env, .callbackResolved tag) = some pipeline) :
      Steps env s (.returned tag) { s with pipeline }
  | rejected {tag c error pipeline} (hc : s.calls.get? tag = some c)
      (hstage : c.stage = .rejected error)
      (hp : ConsumePipeline.step s.pipeline (env, .callbackRejected tag error) = some pipeline) :
      Steps env s (.returned tag) { s with pipeline }

theorem step_cases {s s' : State α} {input : ConsumePipeline.Env α × Event α}
    (hs : step s input = some s') : Steps input.1 s input.2 s' := by
  obtain ⟨env, event⟩ := input
  cases event with
  | pipeline event =>
    simp only [step] at hs
    split at hs
    · obtain ⟨pipeline, hp, rfl⟩ := Option.map_eq_some_iff.mp hs
      exact .pipeline ‹_› hp
    · cases hs
  | respond id channel noAck retryPolicy replyOnError =>
    obtain ⟨_, hpiped, rfl⟩ := Option.map_eq_some_iff.mp hs
    obtain ⟨pipeline, hp, rfl⟩ := Option.map_eq_some_iff.mp hpiped
    exact .respond hp
  | deliver id message replyTo deadline =>
    obtain ⟨replyOnError, hresponder, hs⟩ := Option.bind_eq_some_iff.mp hs
    obtain ⟨_, hpiped, rfl⟩ := Option.map_eq_some_iff.mp hs
    obtain ⟨pipeline, hp, rfl⟩ := Option.map_eq_some_iff.mp hpiped
    exact .deliver hresponder hp
  | invoked tag now =>
    obtain ⟨request, hrequest, hs⟩ := Option.bind_eq_some_iff.mp hs
    obtain ⟨_, hpiped, rfl⟩ := Option.map_eq_some_iff.mp hs
    obtain ⟨pipeline, hp, rfl⟩ := Option.map_eq_some_iff.mp hpiped
    exact .invoked hrequest hp
  | handled tag result =>
    obtain ⟨c, hc, hs⟩ := Option.bind_eq_some_iff.mp hs
    split at hs
    · next hstage => cases hs; exact .handled hc hstage
    · cases hs
  | publishes tag result =>
    obtain ⟨c, hc, hs⟩ := Option.bind_eq_some_iff.mp hs
    dsimp only at hs
    split at hs
    · next hstage =>
      cases result with
      | ok => cases hs; exact .publishes hc hstage
      | error error => cases hs; exact .fails hc hstage
    · cases hs
  | returned tag =>
    obtain ⟨c, hc, hs⟩ := Option.bind_eq_some_iff.mp hs
    split at hs
    · next hstage =>
      obtain ⟨pipeline, hp, rfl⟩ := Option.map_eq_some_iff.mp hs
      exact .resolved hc hstage hp
    · next hstage =>
      obtain ⟨pipeline, hp, rfl⟩ := Option.map_eq_some_iff.mp hs
      exact .rejected hc hstage hp
    · cases hs

end Respond
end RabbitMQ

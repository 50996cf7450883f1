import RabbitMQ.Consumers.SequentialProcessor.Contents

/-! What happens to a delivery between the consume callback and its settlement.

A subscription is one run of the setup closure of `#subscribeCore`: the channel it consumes on, its
options and, for `subscribeSequential`, the processor it created. Every delivery carries the
channel it came on and whether it was settled (`__channel` and `__ackSettled`). The application may
settle a delivery itself at any moment, before or after its handler completed. -/

namespace RabbitMQ
namespace ConsumePipeline

variable {α : Type}

inductive Action where
  | ack
  | nack (requeue : Bool)
  deriving DecidableEq

/-- Who settles: `settleAck` from the pipeline, `ackMessage` or `nackMessage` for the handler. -/
inductive Origin where
  | pipeline
  | application
  deriving DecidableEq

/-- An `ack` or `nack` that was sent. -/
structure Settlement where
  channel : Nat
  tag : Nat
  action : Action
  origin : Origin
  deriving DecidableEq

structure Subscription where
  channel : Nat
  noAck : Bool
  retryPolicy : RetryPolicy
  /-- The `staleTimeout` of the processor of a `subscribeSequential`. -/
  sequential : Option Nat := none

/-- Where the consume callback of a delivery is. -/
inductive Stage where
  /-- `await this.codec.decode(...)` -/
  | decoding
  /-- `await processMessage(decodedContent, msg)` -/
  | handling
  /-- something was thrown, before or after the content was decoded: the `catch` block is next -/
  | rejected (decoded : Bool) (error : Value)
  | returned

structure Delivery (α : Type) where
  subscription : Nat
  /-- `__channel` -/
  channel : Nat
  message : Message α
  /-- `__ackSettled` -/
  ackSettled : Bool
  stage : Stage

structure State (α : Type) where
  subscriptions : OrderedMap Nat Subscription
  processors : OrderedMap Nat (SequentialProcessor.State α)
  deliveries : OrderedMap Nat (Delivery α)
  /-- The settlements sent so far, oldest first. -/
  settlements : List Settlement
  /-- The deliveries for which a call of `ack` or `nack` threw. -/
  refused : List Nat
  /-- The deliveries whose handler settled, or will never be called. -/
  finished : List Nat

/-- What the world does during one step: which calls of `ack` and `nack` throw, and what the
reports to the listeners throw. -/
structure Env (α : Type) where
  refuses : Nat → Action → Bool
  processed : Message α → Except Value Unit
  failed : Message α → Value → Except Value Unit

def start : State α := ⟨.empty, .empty, .empty, [], [], []⟩

namespace State

def setStage (s : State α) (tag : Nat) (stage : Stage) : State α :=
  match s.deliveries.get? tag with
  | none => s
  | some d => { s with deliveries := s.deliveries.set tag { d with stage } }

def finish (s : State α) (tag : Nat) : State α := { s with finished := tag :: s.finished }

/-- Sends a settlement unless the delivery has one; the flag is set after a successful send. -/
def settle (s : State α) (env : Env α) (channel tag : Nat) (action : Action) (origin : Origin) :
    State α :=
  match s.deliveries.get? tag with
  | none => s
  | some d =>
    if d.ackSettled then s
    else if env.refuses tag action then { s with refused := tag :: s.refused }
    else
      { s with
        deliveries := s.deliveries.set tag { d with ackSettled := true }
        settlements := s.settlements ++ [⟨channel, tag, action, origin⟩] }

/-- `settleAck` behind its callers' `if (!noAck)`, on the channel the closure consumes on. -/
def settleAck (s : State α) (env : Env α) (sub : Subscription) (tag : Nat) (action : Action) :
    State α :=
  if sub.noAck then s else s.settle env sub.channel tag action .pipeline

/-- On the channel the message carries. What it throws goes to the handler. -/
def ackMessage (s : State α) (env : Env α) (tag : Nat) : State α :=
  match s.deliveries.get? tag with
  | none => s
  | some d => s.settle env d.channel tag .ack .application

def nackMessage (s : State α) (env : Env α) (tag : Nat) (requeue : Bool) : State α :=
  match s.deliveries.get? tag with
  | none => s
  | some d => s.settle env d.channel tag (.nack requeue) .application

/-- The `catch` block of the consume callback. -/
def catchError (s : State α) (env : Env α) (sub : Subscription) (message : Message α)
    (error : Value) : State α :=
  match describedText error with
  | .error _ => s
  | .ok _ =>
    match shouldRequeue message error sub.retryPolicy with
    | .error _ => s
    | .ok requeue => s.settleAck env sub message.tag (.nack requeue)

/-- `onSuccess` and `onFailure` as `subscribeSequential` passes them, and the return of
`processor.handle` to the consume callback. Nothing is called for a delivery that a sweep dropped
undecided. -/
def report (env : Env α) (sub : Subscription) (s : State α) :
    SequentialProcessor.Output α → State α
  | .onSuccess message _ => (s.settleAck env sub message.tag .ack).finish message.tag
  | .onFailure message _ requeue _ =>
    (s.settleAck env sub message.tag (.nack requeue)).finish message.tag
  | .undecided message => s.finish message.tag
  | .handled root (.ok _) => s.setStage root .returned
  | .handled root (.error e) => s.setStage root (.rejected true e)
  | _ => s

/-- A step of a processor, with the calls it made of its options. -/
def advance (s : State α) (env : Env α) (id : Nat) (sub : Subscription)
    (r : SequentialProcessor.State α × List (SequentialProcessor.Output α)) : State α :=
  r.2.foldl (report env sub) { s with processors := s.processors.set id r.1 }

end State

/-- The options given to the processor. Only a callback that ran is reported as processed: the
duplicate of a parked message is dropped without a report. -/
def hooks (env : Env α) (sub : Subscription) (event : SequentialProcessor.Event α) :
    SequentialProcessor.Hooks α where
  onSuccess message :=
    match event with
    | .callbackResolved _ => env.processed message
    | _ => .ok ()
  shouldRequeue message error := shouldRequeue message error sub.retryPolicy
  onFailure := env.failed

/-- The manager always gives the processor its logger. -/
def config (staleTimeout : Nat) : SequentialProcessor.Config := ⟨staleTimeout, true⟩

inductive Event (α : Type) where
  /-- a setup closure created its processor and consumes -/
  | subscribe (id : Nat) (sub : Subscription)
  | deliver (subscription : Nat) (message : Message α)
  | decoded (tag : Nat)
  | undecodable (tag : Nat) (error : Value)
  /-- the handler of a plain subscription returned -/
  | callbackResolved (tag : Nat)
  | callbackRejected (tag : Nat) (error : Value)
  /-- the `catch` block of the consume callback runs -/
  | caught (tag : Nat)
  /-- a step of a sequential processor after `handle` was called -/
  | processor (id : Nat) (event : SequentialProcessor.Event α)
  | ackMessage (tag : Nat)
  | nackMessage (tag : Nat) (requeue : Bool)

/-- A delivery and its subscription. -/
def State.lookup (s : State α) (tag : Nat) : Option (Delivery α × Subscription) :=
  (s.deliveries.get? tag).bind fun d =>
    (s.subscriptions.get? d.subscription).map fun sub => (d, sub)

/-- A plain handler returned: the delivery is acknowledged, then reported. -/
def State.complete (s : State α) (env : Env α) (d : Delivery α) (sub : Subscription) : State α :=
  let s := (s.settleAck env sub d.message.tag .ack).finish d.message.tag
  match env.processed d.message with
  | .ok _ => s.setStage d.message.tag .returned
  | .error e => s.setStage d.message.tag (.rejected true e)

/-- The delivery whose handler throws in this step of a processor. -/
def throwing (p : SequentialProcessor.State α) : SequentialProcessor.Event α → Option Nat
  | .callbackRejected root _ =>
    match p.calls.get? root with
    | some (⟨message, _, .callback⟩ :: _) => some message.tag
    | _ => none
  | _ => none

variable [DecidableEq α]

/-- `processMessage(decodedContent, msg)`, up to where it suspends. -/
def State.processMessage (s : State α) (env : Env α) (d : Delivery α) (sub : Subscription) :
    State α :=
  let s := s.setStage d.message.tag .handling
  match sub.sequential, s.processors.get? d.subscription with
  | some _, some p =>
    s.advance env d.subscription sub
      (SequentialProcessor.deliver (hooks env sub (.handle d.message)) p d.message)
  | _, _ => s

def step [ToString α] (s : State α) (input : Env α × Event α) : Option (State α) :=
  let (env, event) := input
  match event with
  | .subscribe id sub =>
    if id ∈ s.subscriptions then none
    else some { s with
      subscriptions := s.subscriptions.set id sub
      processors := if sub.sequential.isSome then s.processors.set id SequentialProcessor.start
        else s.processors }
  | .deliver id message =>
    match s.subscriptions.get? id with
    | none => none
    | some sub =>
      if message.tag ∈ s.deliveries then none
      -- `attachAckControls`
      else some { s with
        deliveries := s.deliveries.set message.tag ⟨id, sub.channel, message, false, .decoding⟩ }
  | .decoded tag =>
    match s.lookup tag with
    | some (⟨id, channel, message, settled, .decoding⟩, sub) =>
      some (s.processMessage env ⟨id, channel, message, settled, .decoding⟩ sub)
    | _ => none
  | .undecodable tag error =>
    match s.lookup tag with
    | some (⟨_, _, _, _, .decoding⟩, _) =>
      some ((s.finish tag).setStage tag (.rejected false error))
    | _ => none
  | .callbackResolved tag =>
    match s.lookup tag with
    | some (⟨id, channel, message, settled, .handling⟩, sub) =>
      if sub.sequential.isSome then none
      else some (s.complete env ⟨id, channel, message, settled, .handling⟩ sub)
    | _ => none
  | .callbackRejected tag error =>
    match s.lookup tag with
    | some (⟨_, _, _, _, .handling⟩, sub) =>
      if sub.sequential.isSome then none
      else some ((s.finish tag).setStage tag (.rejected true error))
    | _ => none
  | .caught tag =>
    match s.lookup tag with
    | some (⟨_, _, message, _, .rejected _ error⟩, sub) =>
      some ((s.catchError env sub message error).setStage tag .returned)
    | _ => none
  | .processor _ (.handle _) => none
  | .processor id event =>
    match s.subscriptions.get? id, s.processors.get? id with
    | some sub, some p =>
      (sub.sequential.bind fun staleTimeout =>
        SequentialProcessor.step (config staleTimeout) p (hooks env sub event, event)).map fun r =>
          (throwing p event).elim (s.advance env id sub r) (s.advance env id sub r).finish
    | _, _ => none
  | .ackMessage tag => if tag ∈ s.deliveries then some (s.ackMessage env tag) else none
  | .nackMessage tag requeue =>
    if tag ∈ s.deliveries then some (s.nackMessage env tag requeue) else none

/-- What a step can be, with the code it runs. -/
inductive Steps [ToString α] (env : Env α) (s : State α) : Event α → State α → Prop
  | subscribe {id sub} (hfresh : id ∉ s.subscriptions) :
      Steps env s (.subscribe id sub)
        { s with
          subscriptions := s.subscriptions.set id sub
          processors := if sub.sequential.isSome then
            s.processors.set id SequentialProcessor.start else s.processors }
  | deliver {id sub message} (hsub : s.subscriptions.get? id = some sub)
      (hfresh : message.tag ∉ s.deliveries) :
      Steps env s (.deliver id message)
        { s with
          deliveries := s.deliveries.set message.tag
            ⟨id, sub.channel, message, false, .decoding⟩ }
  | decoded {tag d sub} (hd : s.lookup tag = some (d, sub)) (hstage : d.stage = .decoding) :
      Steps env s (.decoded tag) (s.processMessage env d sub)
  | undecodable {tag d sub error} (hd : s.lookup tag = some (d, sub))
      (hstage : d.stage = .decoding) :
      Steps env s (.undecodable tag error) ((s.finish tag).setStage tag (.rejected false error))
  | callbackResolved {tag d sub} (hd : s.lookup tag = some (d, sub))
      (hstage : d.stage = .handling) (hplain : sub.sequential = none) :
      Steps env s (.callbackResolved tag) (s.complete env d sub)
  | callbackRejected {tag d sub error} (hd : s.lookup tag = some (d, sub))
      (hstage : d.stage = .handling) (hplain : sub.sequential = none) :
      Steps env s (.callbackRejected tag error)
        ((s.finish tag).setStage tag (.rejected true error))
  | caught {tag d sub decoded error} (hd : s.lookup tag = some (d, sub))
      (hstage : d.stage = .rejected decoded error) :
      Steps env s (.caught tag) ((s.catchError env sub d.message error).setStage tag .returned)
  | processor {id sub p staleTimeout event r} (hsub : s.subscriptions.get? id = some sub)
      (hp : s.processors.get? id = some p) (hsequential : sub.sequential = some staleTimeout)
      (hlater : ∀ message, event ≠ .handle message)
      (hs : SequentialProcessor.step (config staleTimeout) p (hooks env sub event, event) =
        some r) :
      Steps env s (.processor id event)
        ((throwing p event).elim (s.advance env id sub r) (s.advance env id sub r).finish)
  | ackMessage {tag} (hd : tag ∈ s.deliveries) :
      Steps env s (.ackMessage tag) (s.ackMessage env tag)
  | nackMessage {tag requeue} (hd : tag ∈ s.deliveries) :
      Steps env s (.nackMessage tag requeue) (s.nackMessage env tag requeue)

theorem step_cases [ToString α] {s s' : State α} {input : Env α × Event α}
    (hs : step s input = some s') : Steps input.1 s input.2 s' := by
  obtain ⟨env, event⟩ := input
  cases event with
  | subscribe id sub =>
    simp only [step] at hs
    split at hs
    · cases hs
    · cases hs; exact .subscribe ‹_›
  | deliver id message =>
    simp only [step] at hs
    split at hs
    · cases hs
    · split at hs
      · cases hs
      · cases hs; exact .deliver ‹_› ‹_›
  | decoded tag =>
    simp only [step] at hs
    split at hs
    · cases hs; exact .decoded ‹_› rfl
    · cases hs
  | undecodable tag error =>
    simp only [step] at hs
    split at hs
    · cases hs; exact .undecodable ‹_› rfl
    · cases hs
  | callbackResolved tag =>
    simp only [step] at hs
    split at hs
    · split at hs
      · cases hs
      · cases hs; exact .callbackResolved ‹_› rfl (Option.not_isSome_iff_eq_none.mp ‹_›)
    · cases hs
  | callbackRejected tag error =>
    simp only [step] at hs
    split at hs
    · split at hs
      · cases hs
      · cases hs; exact .callbackRejected ‹_› rfl (Option.not_isSome_iff_eq_none.mp ‹_›)
    · cases hs
  | caught tag =>
    simp only [step] at hs
    split at hs
    · cases hs; exact .caught ‹_› rfl
    · cases hs
  | processor id event =>
    have hlater : ∀ message, event ≠ .handle message := by
      rintro message rfl
      cases hs
    simp only [step] at hs
    split at hs
    · rename_i hsub hp
      obtain ⟨r, hr, rfl⟩ := Option.map_eq_some_iff.mp hs
      obtain ⟨staleTimeout, hsequential, hr⟩ := Option.bind_eq_some_iff.mp hr
      exact .processor hsub hp hsequential hlater hr
    · cases hs
  | ackMessage tag =>
    simp only [step] at hs
    split at hs
    · cases hs; exact .ackMessage ‹_›
    · cases hs
  | nackMessage tag requeue =>
    simp only [step] at hs
    split at hs
    · cases hs; exact .nackMessage ‹_›
    · cases hs

end ConsumePipeline
end RabbitMQ

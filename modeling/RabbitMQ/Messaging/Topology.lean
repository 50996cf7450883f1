import RabbitMQ.Lib.OrderedMap
import RabbitMQ.Lib.Transition
import RabbitMQ.Messaging.MessageCodec
import RabbitMQ.Messaging.RoutablePublish

/-! What the library declares, and how it moves a message to a dead letter queue. The broker is the
environment: it grants or refuses what it is asked for, and delivers whatever was published, to
whomever, as often and in whichever order it likes. -/

namespace RabbitMQ
namespace Topology

open MessageCodec (HeaderValue)

/-- An object of options, headers or arguments. -/
abbrev Table := OrderedMap String HeaderValue

instance : DecidableEq Table := fun m n =>
  decidable_of_iff (m.entries = n.entries) ⟨fun h => by cases m; cases n; cases h; rfl, congrArg _⟩

/-- `{ ...table, ...entries }` -/
def spread (table : Table) (entries : List (String × HeaderValue)) : Table :=
  entries.foldl (fun table e => table.set e.1 e.2) table

/-! ## Declarations -/

/-- The options of a declaration: `arguments`, and the others. -/
structure Options where
  options : Table
  arguments : Option Table
  deriving DecidableEq

/-- `{ durable: true }` -/
def durable : Options := ⟨spread .empty [("durable", .boolean true)], none⟩

inductive Request where
  | assertExchange (exchange type : String) (options : Options)
  | assertQueue (queue : String) (options : Options)
  | bindQueue (queue exchange key : String)
  deriving DecidableEq

/-- `this.getExchange()` -/
structure Exchange where
  name : String
  type : String
  options : Option Options

def Exchange.typeOr (exchange : Exchange) : String :=
  if exchange.type = "" then "direct" else exchange.type

/-- Without a name there is nothing to declare. -/
def ensureExchange (exchange : Exchange) : List Request :=
  if exchange.name = "" then []
  else [.assertExchange exchange.name exchange.typeOr (exchange.options.getD durable)]

def setupDeadLetterExchange (deadLetterExchange : String) : List Request :=
  [.assertExchange deadLetterExchange "direct" durable]

def deadLetterQueue (queueName : String) : String := queueName ++ "_dlq"

def queueOptions (deadLetterExchange queueName : String) (o : Options) : Options where
  options := spread durable.options o.options.entries
  arguments := some (spread .empty
    ([("x-dead-letter-exchange", .string deadLetterExchange),
      ("x-dead-letter-routing-key", .string (deadLetterQueue queueName))] ++
    (((o.options.get? "maxPriority").filter (·.truthy)).map ("x-max-priority", ·)).toList ++
    (o.arguments.map (·.entries)).getD []))

def createQueue (deadLetterExchange queueName : String) (o : Options) : List Request :=
  [.assertQueue queueName (queueOptions deadLetterExchange queueName o),
    .assertQueue (deadLetterQueue queueName) durable,
    .bindQueue (deadLetterQueue queueName) deadLetterExchange (deadLetterQueue queueName)]

/-- `options.type`, and `options.exchangeOptions`. -/
def setupDelayExchange (delayExchange : String) (exchange : Exchange) (type : String)
    (exchangeOptions : Options) : List Request :=
  let delayedType := if type = "" then exchange.typeOr else type
  [.assertExchange delayExchange "x-delayed-message"
    { options := spread durable.options exchangeOptions.options.entries
      arguments := some (exchangeOptions.arguments.getD
        (spread .empty [("x-delayed-type", .string delayedType)])) }]

/-- A call that declares: what it asks for, one after the other, once it has a channel. -/
structure Declaring where
  requests : List Request
  /-- `await this.getChannel()` is over -/
  onChannel : Bool
  /-- how many requests were granted -/
  granted : Nat
  outcome : Option (Except String Unit)

/-- A call without requests does not even need a channel. -/
def Declaring.begin (requests : List Request) : Declaring :=
  ⟨requests, false, 0, if requests = [] then some (.ok ()) else none⟩

/-- What the broker is asked for. -/
def Declaring.asked (x : Declaring) : Option Request :=
  if x.onChannel then x.requests[x.granted]? else none

/-- The promise that the call awaits resolves: it asks for the next thing, or is done. -/
def Declaring.granting (x : Declaring) : Declaring :=
  if x.onChannel then
    { x with
      granted := x.granted + 1
      outcome := if x.granted + 1 = x.requests.length then some (.ok ()) else none }
  else { x with onChannel := true }

/-! ## Messages -/

variable {Bytes : Type}

/-- A message, as it is published or delivered. -/
structure Letter (Bytes : Type) where
  content : Bytes
  headers : Table
  /-- the other properties, and options of the publish -/
  properties : Table
  exchange : String
  routingKey : String
  deriving DecidableEq

/-- A publication: its message, the first publication it goes back to, and the call of
`moveToDeadLetter` that made it. -/
structure Publication (Bytes : Type) where
  letter : Letter Bytes
  origin : Nat
  mover : Option Nat
  deriving DecidableEq

structure Delivery (Bytes : Type) where
  consumerTag : String
  letter : Letter Bytes
  origin : Nat
  deriving DecidableEq

/-- The publish of a move: on which channel, and as which of its calls of `publishWatched`. -/
structure Sending where
  channel : Nat
  index : Nat
  time : String
  token : String
  deriving DecidableEq

/-- A call of `moveToDeadLetter`. -/
structure Move (Bytes : Type) where
  message : Delivery Bytes
  reason : String
  /-- what `getQueueNameByConsumerTag` answered -/
  sourceQueue : Option String
  sending : Option Sending
  outcome : Option (Except String Unit)

/-- `sourceQueue || message.fields.routingKey` -/
def Move.source (m : Move Bytes) : String :=
  match m.sourceQueue with
  | some queueName => if queueName = "" then m.message.letter.routingKey else queueName
  | none => m.message.letter.routingKey

def Move.deadLetterQueue (m : Move Bytes) : String := Topology.deadLetterQueue m.source

/-- `properties.headers` -/
def Move.headers (m : Move Bytes) (time : String) : Table :=
  spread m.message.letter.headers [("x-death-reason", .string m.reason),
    ("x-death-time", .string time), ("x-original-exchange", .string m.message.letter.exchange),
    ("x-original-routing-key", .string m.message.letter.routingKey)]

/-- What `publishWatched` publishes for the call. -/
def Move.letter (m : Move Bytes) (deadLetterExchange time token : String) : Letter Bytes where
  content := m.message.letter.content
  headers := (m.headers time).set "x-return-token" (.string token)
  properties := spread m.message.letter.properties [("persistent", .boolean true),
    ("mandatory", .boolean true)]
  exchange := deadLetterExchange
  routingKey := m.deadLetterQueue

def Move.returned (m : Move Bytes) (deadLetterExchange : String) : String :=
  s!"Dead letter queue routing key '{m.deadLetterQueue}' has no binding on exchange " ++
    s!"'{deadLetterExchange}' — message was returned"

/-- What the call makes of the report of `publishWatched`, or of the error it threw. -/
def Move.verdict (m : Move Bytes) (deadLetterExchange message : String) :
    Option Bool → Except String Unit
  | none => .error s!"Failed to move message to dead letter queue: {message}"
  | some true => .error (m.returned deadLetterExchange)
  | some false => .ok ()

/-- What the watch reads of headers. -/
def watched (headers : Table) : RoutablePublish.Headers String where
  returnToken :=
    match headers.get? "x-return-token" with
    | some (.string token) => some token
    | _ => none

structure State (Bytes : Type) where
  channels : OrderedMap Nat (RoutablePublish.State String)
  /-- the queues of the consumers, by tag -/
  consumers : OrderedMap String String
  declaring : OrderedMap Nat Declaring
  /-- what the broker has granted, and to which call -/
  granted : List (Nat × Request)
  published : List (Publication Bytes)
  deliveries : OrderedMap Nat (Delivery Bytes)
  moves : OrderedMap Nat (Move Bytes)

def start : State Bytes := ⟨.empty, .empty, .empty, [], [], .empty, .empty⟩

namespace State

/-- What the broker has granted to a call. -/
def grantedTo (s : State Bytes) (call : Nat) : List Request :=
  s.granted.filterMap fun grant => if grant.1 = call then some grant.2 else none

/-- A grant, of the channel or of what the call has asked for. -/
def grants (s : State Bytes) (call : Nat) (x : Declaring) : State Bytes :=
  { s with
    declaring := s.declaring.set call x.granting
    granted := s.granted ++ (x.asked.map fun request => (call, request)).toList }

def channel (s : State Bytes) (n : Nat) : RoutablePublish.State String :=
  (s.channels.get? n).getD RoutablePublish.start

/-- `findQueueNameByTag` -/
def findQueueNameByTag (s : State Bytes) (consumerTag : String) : Option String :=
  if consumerTag = "" then none else s.consumers.get? consumerTag

/-- The publications of a call of `moveToDeadLetter`. -/
def publishedBy (s : State Bytes) (call : Nat) : List (Publication Bytes) :=
  s.published.filter fun p => p.mover = some call

/-- `moveToDeadLetter`, up to its first await. -/
def moveToDeadLetter (s : State Bytes) (call : Nat) (message : Delivery Bytes)
    (reason : Option String) : State Bytes :=
  { s with
    moves := s.moves.set call {
      message
      reason := reason.getD "Manually moved to DLQ"
      sourceQueue := s.findQueueNameByTag message.consumerTag
      sending := none
      outcome := none } }

/-- `moveToDeadLetter` with its channel, up to the confirm. A publish that throws is none. -/
def publishes (s : State Bytes) (deadLetterExchange : String) (call : Nat) (m : Move Bytes)
    (channel : Nat) (time token : String) (throws : Bool) : State Bytes :=
  { s with
    channels := s.channels.set channel
      ((s.channel channel).publishWatched (watched (m.headers time)) token throws)
    published := s.published ++ if throws then [] else
      [⟨m.letter deadLetterExchange time token, m.message.origin, some call⟩]
    moves := s.moves.set call { m with
      sending := some ⟨channel, (s.channel channel).calls.length, time, token⟩ } }

end State

inductive Event (Bytes : Type) where
  | subscribes (consumerTag queue : String)
  | unsubscribes (consumerTag : String)
  /-- `ensureExchange`, `setupDeadLetterExchange`, `createQueue` or `setupDelayExchange` -/
  | declares (call : Nat) (requests : List Request)
  /-- the channel is there, or the broker has granted the request -/
  | grants (call : Nat)
  /-- there is no channel, it is lost, or the broker refuses -/
  | refuses (call : Nat) (message : String)
  /-- somebody publishes a message for the first time -/
  | sends (letter : Letter Bytes)
  /-- the broker delivers what was published, as this -/
  | delivers (id publication : Nat) (consumerTag : String) (letter : Letter Bytes)
  | moveToDeadLetter (call id : Nat) (reason : Option String)
  | noChannel (call : Nat) (message : String)
  | publishes (call channel : Nat) (time token : String) (throws : Bool)
  /-- the returns and the confirms of a channel, and what others do on it -/
  | channel (n : Nat) (event : RoutablePublish.Event String)
  /-- `publishWatched` is over for the call; `message` is that of its error -/
  | resumes (call : Nat) (message : String)

def step (deadLetterExchange : String) (s : State Bytes) : Event Bytes → Option (State Bytes)
  | .subscribes consumerTag queue =>
    some { s with consumers := s.consumers.set consumerTag queue }
  | .unsubscribes consumerTag => some { s with consumers := s.consumers.erase consumerTag }
  | .declares call requests =>
    if call ∈ s.declaring then none
    else some { s with declaring := s.declaring.set call (.begin requests) }
  | .grants call =>
    (s.declaring.get? call).bind fun x =>
      if x.outcome.isNone then some (s.grants call x) else none
  | .refuses call message =>
    (s.declaring.get? call).bind fun x =>
      if x.outcome.isNone then
        some { s with
          declaring := s.declaring.set call { x with outcome := some (.error message) } }
      else none
  | .sends letter => some { s with published := s.published ++ [⟨letter, s.published.length, none⟩] }
  | .delivers id publication consumerTag letter =>
    if id ∈ s.deliveries then none
    else (s.published[publication]?).map fun p =>
      { s with deliveries := s.deliveries.set id ⟨consumerTag, letter, p.origin⟩ }
  | .moveToDeadLetter call id reason =>
    if call ∈ s.moves then none
    else (s.deliveries.get? id).map fun message => s.moveToDeadLetter call message reason
  | .noChannel call message =>
    (s.moves.get? call).bind fun m =>
      if m.sending.isNone ∧ m.outcome.isNone then
        some { s with moves := s.moves.set call { m with outcome := some (.error message) } }
      else none
  | .publishes call channel time token throws =>
    (s.moves.get? call).bind fun m =>
      if m.sending.isNone ∧ m.outcome.isNone then
        some (s.publishes deadLetterExchange call m channel time token throws)
      else none
  | .channel n event =>
    (RoutablePublish.step (s.channel n) event).map fun channel =>
      { s with channels := s.channels.set n channel }
  | .resumes call message =>
    (s.moves.get? call).bind fun m =>
      if m.outcome.isNone then
        m.sending.bind fun sending =>
          ((s.channel sending.channel).calls[sending.index]?.bind (·.result)).map fun result =>
            { s with moves := s.moves.set call { m with
                outcome := some (m.verdict deadLetterExchange message result) } }
      else none

/-- What a step can be, with the code it runs. -/
inductive Steps (deadLetterExchange : String) (s : State Bytes) : Event Bytes → State Bytes → Prop
  | subscribes {consumerTag queue} : Steps deadLetterExchange s (.subscribes consumerTag queue)
      { s with consumers := s.consumers.set consumerTag queue }
  | unsubscribes {consumerTag} : Steps deadLetterExchange s (.unsubscribes consumerTag)
      { s with consumers := s.consumers.erase consumerTag }
  | declares {call requests} (hfresh : call ∉ s.declaring) :
      Steps deadLetterExchange s (.declares call requests)
        { s with declaring := s.declaring.set call (.begin requests) }
  | grants {call x} (hx : s.declaring.get? call = some x) (hopen : x.outcome = none) :
      Steps deadLetterExchange s (.grants call) (s.grants call x)
  | refuses {call message x} (hx : s.declaring.get? call = some x) (hopen : x.outcome = none) :
      Steps deadLetterExchange s (.refuses call message)
        { s with declaring := s.declaring.set call { x with outcome := some (.error message) } }
  | sends {letter} : Steps deadLetterExchange s (.sends letter)
      { s with published := s.published ++ [⟨letter, s.published.length, none⟩] }
  | delivers {id publication consumerTag letter p} (hp : s.published[publication]? = some p) :
      Steps deadLetterExchange s (.delivers id publication consumerTag letter)
        { s with deliveries := s.deliveries.set id ⟨consumerTag, letter, p.origin⟩ }
  | moveToDeadLetter {call id reason message} (hfresh : call ∉ s.moves)
      (hd : s.deliveries.get? id = some message) :
      Steps deadLetterExchange s (.moveToDeadLetter call id reason)
        (s.moveToDeadLetter call message reason)
  | noChannel {call message m} (hm : s.moves.get? call = some m) (hsending : m.sending = none) :
      Steps deadLetterExchange s (.noChannel call message)
        { s with moves := s.moves.set call { m with outcome := some (.error message) } }
  | publishes {call channel time token throws m} (hm : s.moves.get? call = some m)
      (hsending : m.sending = none) (hopen : m.outcome = none) :
      Steps deadLetterExchange s (.publishes call channel time token throws)
        (s.publishes deadLetterExchange call m channel time token throws)
  | channel {n event channel} (hs : RoutablePublish.step (s.channel n) event = some channel) :
      Steps deadLetterExchange s (.channel n event)
        { s with channels := s.channels.set n channel }
  | resumes {call message m sending watch result} (hm : s.moves.get? call = some m)
      (hsending : m.sending = some sending)
      (hwatch : (s.channel sending.channel).calls[sending.index]? = some watch)
      (hresult : watch.result = some result) :
      Steps deadLetterExchange s (.resumes call message)
        { s with moves := s.moves.set call { m with
            outcome := some (m.verdict deadLetterExchange message result) } }

theorem step_cases {deadLetterExchange : String} {s s' : State Bytes} {event : Event Bytes}
    (hs : step deadLetterExchange s event = some s') : Steps deadLetterExchange s event s' := by
  cases event with
  | subscribes => cases hs; exact .subscribes
  | unsubscribes => cases hs; exact .unsubscribes
  | declares call requests =>
    obtain ⟨hfresh, ⟨⟩⟩ := Option.ite_none_left_eq_some.mp hs
    exact .declares hfresh
  | grants call =>
    obtain ⟨x, hx, hs⟩ := Option.bind_eq_some_iff.mp hs
    obtain ⟨hopen, ⟨⟩⟩ := Option.ite_none_right_eq_some.mp hs
    exact .grants hx (Option.isNone_iff_eq_none.mp hopen)
  | refuses call message =>
    obtain ⟨x, hx, hs⟩ := Option.bind_eq_some_iff.mp hs
    obtain ⟨hopen, ⟨⟩⟩ := Option.ite_none_right_eq_some.mp hs
    exact .refuses hx (Option.isNone_iff_eq_none.mp hopen)
  | sends => cases hs; exact .sends
  | delivers id publication consumerTag letter =>
    obtain ⟨-, hs⟩ := Option.ite_none_left_eq_some.mp hs
    obtain ⟨p, hp, rfl⟩ := Option.map_eq_some_iff.mp hs
    exact .delivers hp
  | moveToDeadLetter call id reason =>
    obtain ⟨hfresh, hs⟩ := Option.ite_none_left_eq_some.mp hs
    obtain ⟨message, hd, rfl⟩ := Option.map_eq_some_iff.mp hs
    exact .moveToDeadLetter hfresh hd
  | noChannel call message =>
    obtain ⟨m, hm, hs⟩ := Option.bind_eq_some_iff.mp hs
    obtain ⟨⟨hsending, -⟩, ⟨⟩⟩ := Option.ite_none_right_eq_some.mp hs
    exact .noChannel hm (Option.isNone_iff_eq_none.mp hsending)
  | publishes call channel time token throws =>
    obtain ⟨m, hm, hs⟩ := Option.bind_eq_some_iff.mp hs
    obtain ⟨⟨hsending, hopen⟩, ⟨⟩⟩ := Option.ite_none_right_eq_some.mp hs
    exact .publishes hm (Option.isNone_iff_eq_none.mp hsending) (Option.isNone_iff_eq_none.mp hopen)
  | channel n event =>
    obtain ⟨channel, hchannel, rfl⟩ := Option.map_eq_some_iff.mp hs
    exact .channel hchannel
  | resumes call message =>
    obtain ⟨m, hm, hs⟩ := Option.bind_eq_some_iff.mp hs
    obtain ⟨-, hs⟩ := Option.ite_none_right_eq_some.mp hs
    obtain ⟨sending, hsending, hs⟩ := Option.bind_eq_some_iff.mp hs
    obtain ⟨result, hcall, rfl⟩ := Option.map_eq_some_iff.mp hs
    obtain ⟨watch, hwatch, hresult⟩ := Option.bind_eq_some_iff.mp hcall
    exact .resumes hm hsending hwatch hresult

end Topology
end RabbitMQ

import RabbitMQ.Lib.Number
import RabbitMQ.Lib.Transition
import RabbitMQ.Messaging.PublishBatch
import RabbitMQ.Resilience.RateLimiter

/-! The publish methods and their pipeline: the checks of the arguments, the probe of the connection,
the rate limiter, and then the attempts, which the circuit breaker admits one by one. Every attempt
asks for the channel again, inside the breaker. -/

namespace RabbitMQ
namespace Publisher

open Transition

universe u

variable {β : Type u}

/-- A policy of the circuit breaker, with the state that it keeps. -/
structure Breaker (β : Type u) where
  /-- `circuitBreaker({ … })` -/
  create : β
  /-- It lets an operation run, or the circuit is open. -/
  admits : β → ℚ → Option β
  /-- The operation that it let run resolved. -/
  succeed : β → β
  /-- The operation that it let run rejected. -/
  fail : β → ℚ → β

inductive Method where
  | publish
  /-- `none` is no array. -/
  | publishBatch (messages : Option Nat)
  | publishAsync
  | publishAsyncBatch (messages : Option Nat)
  /-- What is no number counts as one that is not finite. -/
  | publishDelayed (delayMs : Number)
  | request
  deriving DecidableEq

structure Options where
  priority : Option Number := none
  mandatory : Bool := false
  rateLimitKey : Option String := none
  rateLimitCost : Option ℚ := none
  maxRetries : Option Int := none
  timeout : Option Number := none

deriving instance DecidableEq for RateLimiter.Status

inductive Error where
  /-- 'Invalid routing key. It must be a non-empty string.' -/
  | invalidRoutingKey
  /-- 'Invalid priority value. Must be between 0 and …' -/
  | invalidPriority (maxPriority : ℚ)
  /-- 'The 'mandatory' option needs a broker confirm to report the return — …' -/
  | mandatoryRefused (method : String)
  /-- 'Messages must be a non-empty array.' -/
  | emptyBatch
  /-- 'Delay must be a non-negative number of milliseconds' -/
  | invalidDelay
  /-- 'RPC timeout must be a positive number of milliseconds' -/
  | invalidTimeout
  /-- `notConnectedError()` -/
  | notConnected
  /-- 'Rate limit exceeded for key: …' -/
  | rateLimitExceeded (key : String) (status : RateLimiter.Status)
  | rateLimit (error : RateLimiter.RateLimitError)
  /-- The circuit is open. -/
  | circuitOpen
  /-- of a channel, of the codec or of the broker -/
  | other
  deriving DecidableEq

/-! ## The checks of the arguments -/

/-- The characters that `trim` removes. -/
def whiteSpace : List Nat :=
  [0x9, 0xA, 0xB, 0xC, 0xD, 0x20, 0xA0, 0x1680, 0x2000, 0x2001, 0x2002, 0x2003, 0x2004, 0x2005,
    0x2006, 0x2007, 0x2008, 0x2009, 0x200A, 0x2028, 0x2029, 0x202F, 0x205F, 0x3000, 0xFEFF]

/-- `text.trim() === ''` -/
def blank (text : String) : Bool := text.toList.all fun c => c.toNat ∈ whiteSpace

/-- Whether it throws; a routing key may be no string, and an exchange may have no type. -/
def validateRoutingKey (routingKey : Option String) (exchangeType : Option String) : Option Error :=
  match routingKey with
  | none => some .invalidRoutingKey
  | some routingKey =>
    if exchangeType ∉ [some "fanout", some "headers"] ∧ blank routingKey then
      some .invalidRoutingKey
    else none

def validatePriority (maxPriority : ℚ) (options : Options) : Option Error :=
  match options.priority with
  | none => none
  | some priority =>
    if priority.lt (.finite 0) || (Number.finite maxPriority).lt priority then
      some (.invalidPriority maxPriority)
    else none

/-- `#rejectMandatory` -/
def rejectMandatory (options : Options) (method : String) : Option Error :=
  if options.mandatory then some (.mandatoryRefused method) else none

/-- `!Array.isArray(messages) || messages.length === 0` -/
def rejectEmpty (messages : Option Nat) : Option Error :=
  match messages with
  | none | some 0 => some .emptyBatch
  | some (_ + 1) => none

def rejectDelay : Number → Option Error
  | .finite delayMs => if delayMs < 0 then some .invalidDelay else none
  | _ => some .invalidDelay

/-- `options.timeout ?? DEFAULT_TIMEOUT` -/
def rejectTimeout (options : Options) : Option Error :=
  match options.timeout.getD (.finite 30000) with
  | .finite timeout => if timeout ≤ 0 then some .invalidTimeout else none
  | _ => some .invalidTimeout

/-- The checks of a method before `preflight`. -/
def Method.check (method : Method) (options : Options) : Option Error :=
  match method with
  | .publish => none
  | .publishBatch messages => rejectEmpty messages
  | .publishAsync => rejectMandatory options "publishAsync"
  | .publishAsyncBatch messages =>
    (rejectMandatory options "publishAsyncBatch").or (rejectEmpty messages)
  | .publishDelayed delayMs => rejectDelay delayMs
  | .request => rejectTimeout options

/-- The first check that throws, up to the probe. -/
def check (maxPriority : ℚ) (method : Method) (exchangeType routingKey : Option String)
    (options : Options) : Option Error :=
  ((method.check options).or (validateRoutingKey routingKey exchangeType)).or
    (validatePriority maxPriority options)

/-! ## Calls -/

def Method.defaultRateKey (method : Method) (routingKey : String) : String :=
  match method with
  | .publish | .publishBatch _ => routingKey
  | .publishAsync => "async:" ++ routingKey
  | .publishAsyncBatch _ => "async-batch:" ++ routingKey
  | .publishDelayed _ => "delayed:" ++ routingKey
  | .request => "rpc:" ++ routingKey

def Method.cost (method : Method) (options : Options) : ℚ :=
  match method with
  | .publishBatch messages | .publishAsyncBatch messages =>
    messages.getD 0 * options.rateLimitCost.getD 1
  | _ => options.rateLimitCost.getD 1

/-- How often the operation runs at most: `publishPolicy`, or `circuitBreaker.execute` alone. -/
def Method.attempts (method : Method) (options : Options) : Nat :=
  match method with
  | .publish | .publishBatch _ | .publishDelayed _ => PublishBatch.attempts options.maxRetries
  | .publishAsync | .publishAsyncBatch _ => 1
  | .request => PublishBatch.attempts (some (options.maxRetries.getD 1))

/-- Its operation begins with `await this.getChannel()`; that of a request has its channel. -/
def Method.fetches : Method → Bool
  | .request => false
  | _ => true

inductive Stage where
  /-- `await this.getChannel()`, in `preflight` -/
  | probing
  /-- `await this.applyRateLimit(…)`, for this time -/
  | limited (wait : ℚ)
  /-- a request, until its message is encoded -/
  | preparing
  /-- composed with a policy; the next attempt is this one -/
  | waiting (policy attempt : Nat)
  | running (policy attempt : Nat)
  | resolved
  | rejected (error : Error)
  deriving DecidableEq

structure Call where
  method : Method
  key : String
  cost : ℚ
  attempts : Nat
  stage : Stage

/-- A failure that a policy of the breaker has counted. -/
structure Failure where
  policy : Nat
  error : Error
  deriving DecidableEq

structure State (β : Type u) where
  channelPool : Option Nat
  limiter : Option RateLimiter
  /-- The policies of the breaker; `reset` puts another one in place. -/
  policies : List β
  failures : List Failure
  calls : List Call

def start (b : Breaker β) (limiter : Option RateLimiter) : State β := ⟨none, limiter, [b.create], [], []⟩

/-- The number of the policy in place. -/
def State.current (s : State β) : Nat := s.policies.length - 1

def State.join (s : State β) (call : Call) : State β := { s with calls := s.calls ++ [call] }

def State.move (s : State β) (i : Nat) (call : Call) (stage : Stage) : State β :=
  { s with calls := s.calls.set i { call with stage := stage } }

/-- `publish(…)` and the other methods, up to the first await. -/
def State.call (maxPriority : ℚ) (s : State β) (method : Method)
    (exchangeType routingKey : Option String) (options : Options) : State β :=
  let key := options.rateLimitKey.getD (method.defaultRateKey (routingKey.getD ""))
  let stage :=
    match check maxPriority method exchangeType routingKey options with
    | some error => .rejected error
    | none => if s.channelPool.isNone then .rejected .notConnected else .probing
  s.join ⟨method, key, method.cost options, method.attempts options, stage⟩

/-- `applyRateLimit` -/
def State.applyRateLimit (s : State β) (i : Nat) (call : Call) (now : ℚ) : State β :=
  match s.limiter with
  | none => s.move i call (.limited 0)
  | some limiter =>
    match limiter.checkRateLimit call.key call.cost now with
    | (.error error, limiter) =>
      { s.move i call (.rejected (.rateLimit error)) with limiter := some limiter }
    | (.ok verdict, limiter) =>
      if verdict.allowed then
        { s.move i call (.limited verdict.wait) with limiter := some limiter }
      else
        let (status, limiter) := limiter.getStatus call.key now
        { s.move i call (.rejected (.rateLimitExceeded call.key status)) with limiter := some limiter }

/-- An attempt fails: the policy counts it, and the retry policy has another one or gives up. -/
def State.fail (b : Breaker β) (s : State β) (i : Nat) (call : Call) (policy attempt : Nat)
    (error : Error) (now : ℚ) : State β :=
  { s.move i call
      (if attempt + 1 < call.attempts then .waiting policy (attempt + 1) else .rejected error) with
    policies := s.policies.modify policy fun p => b.fail p now
    failures := s.failures ++ [⟨policy, error⟩] }

/-- The policy lets an attempt run: its operation begins. -/
def State.attempt (b : Breaker β) (s : State β) (i : Nat) (call : Call) (policy attempt : Nat)
    (now : ℚ) : State β :=
  if call.method.fetches ∧ s.channelPool = none then
    s.fail b i call policy attempt .notConnected now
  else s.move i call (.running policy attempt)

inductive Event where
  | call (method : Method) (exchangeType routingKey : Option String) (options : Options)
  /-- the pool had a channel for `preflight` -/
  | probed (i : Nat) (now : ℚ)
  /-- the pool had none -/
  | probeFails (i : Nat)
  /-- the rate limiter lets the call go on -/
  | proceeds (i : Nat)
  /-- a request has its reply channel and its content -/
  | prepared (i : Nat)
  /-- a request has none, perhaps since no pool is installed to set a reply channel up -/
  | unprepared (i : Nat) (lost : Bool)
  | attempts (i : Nat) (now : ℚ)
  | succeeds (i : Nat)
  /-- an attempt that had a pool fails -/
  | fails (i : Nat) (now : ℚ)
  | poolInstalled (pool : Nat)
  | poolCleared
  /-- the breaker is reset -/
  | resets

def step (b : Breaker β) (maxPriority : ℚ) (s : State β) : Event → Option (State β)
  | .call method exchangeType routingKey options =>
    some (s.call maxPriority method exchangeType routingKey options)
  | .probed i now => (s.calls[i]?).bind fun call =>
    match call.stage with
    | .probing => some (s.applyRateLimit i call now)
    | _ => none
  | .probeFails i => (s.calls[i]?).bind fun call =>
    match call.stage with
    | .probing => some (s.move i call (.rejected .other))
    | _ => none
  | .proceeds i => (s.calls[i]?).bind fun call =>
    match call.stage with
    | .limited _ =>
      some (s.move i call (if call.method = .request then .preparing else .waiting s.current 0))
    | _ => none
  | .prepared i => (s.calls[i]?).bind fun call =>
    match call.stage with
    | .preparing => some (s.move i call (.waiting s.current 0))
    | _ => none
  | .unprepared i lost => (s.calls[i]?).bind fun call =>
    match call.stage with
    | .preparing =>
      if lost ∧ s.channelPool.isSome then none
      else some (s.move i call (.rejected (if lost then .notConnected else .other)))
    | _ => none
  | .attempts i now => (s.calls[i]?).bind fun call =>
    match call.stage with
    | .waiting policy attempt => (s.policies[policy]?).map fun p =>
      match b.admits p now with
      | none => s.move i call (.rejected .circuitOpen)
      | some p =>
        State.attempt b { s with policies := s.policies.set policy p } i call policy attempt now
    | _ => none
  | .succeeds i => (s.calls[i]?).bind fun call =>
    match call.stage with
    | .running policy _ =>
      some { s.move i call .resolved with policies := s.policies.modify policy b.succeed }
    | _ => none
  | .fails i now => (s.calls[i]?).bind fun call =>
    match call.stage with
    | .running policy attempt => some (s.fail b i call policy attempt .other now)
    | _ => none
  | .poolInstalled pool => some { s with channelPool := some pool }
  | .poolCleared => some { s with channelPool := none }
  | .resets => some { s with policies := s.policies ++ [b.create] }

/-- What a step can be, with the code it runs. -/
inductive Steps (b : Breaker β) (maxPriority : ℚ) (s : State β) : Event → State β → Prop
  | call {method exchangeType routingKey options} :
      Steps b maxPriority s (.call method exchangeType routingKey options)
        (s.call maxPriority method exchangeType routingKey options)
  | probed {i now call} (hcall : s.calls[i]? = some call) (hstage : call.stage = .probing) :
      Steps b maxPriority s (.probed i now) (s.applyRateLimit i call now)
  | rejects {event i call error} (hevent : ∀ i now, event ≠ .attempts i now)
      (hcall : s.calls[i]? = some call) (hstage : call.stage = .probing ∨ call.stage = .preparing)
      (herror : error = .other ∨ error = .notConnected ∧ s.channelPool = none) :
      Steps b maxPriority s event (s.move i call (.rejected error))
  | proceeds {i wait call} (hcall : s.calls[i]? = some call) (hstage : call.stage = .limited wait) :
      Steps b maxPriority s (.proceeds i)
        (s.move i call (if call.method = .request then .preparing else .waiting s.current 0))
  | prepared {i call} (hcall : s.calls[i]? = some call) (hstage : call.stage = .preparing) :
      Steps b maxPriority s (.prepared i) (s.move i call (.waiting s.current 0))
  | refused {i now call policy attempt p} (hcall : s.calls[i]? = some call)
      (hstage : call.stage = .waiting policy attempt) (hpolicy : s.policies[policy]? = some p)
      (hopen : b.admits p now = none) :
      Steps b maxPriority s (.attempts i now) (s.move i call (.rejected .circuitOpen))
  | attempts {i now call policy attempt p p'} (hcall : s.calls[i]? = some call)
      (hstage : call.stage = .waiting policy attempt) (hpolicy : s.policies[policy]? = some p)
      (hadmits : b.admits p now = some p') :
      Steps b maxPriority s (.attempts i now)
        (State.attempt b { s with policies := s.policies.set policy p' } i call policy attempt now)
  | succeeds {i call policy attempt} (hcall : s.calls[i]? = some call)
      (hstage : call.stage = .running policy attempt) :
      Steps b maxPriority s (.succeeds i)
        { s.move i call .resolved with policies := s.policies.modify policy b.succeed }
  | fails {i now call policy attempt} (hcall : s.calls[i]? = some call)
      (hstage : call.stage = .running policy attempt) :
      Steps b maxPriority s (.fails i now) (s.fail b i call policy attempt .other now)
  | poolInstalled {pool} : Steps b maxPriority s (.poolInstalled pool)
      { s with channelPool := some pool }
  | poolCleared : Steps b maxPriority s .poolCleared { s with channelPool := none }
  | resets : Steps b maxPriority s .resets { s with policies := s.policies ++ [b.create] }

variable {b : Breaker β} {maxPriority : ℚ} {s t : State β} {event : Event}

theorem step_cases (hs : step b maxPriority s event = some t) : Steps b maxPriority s event t := by
  cases event with
  | call | poolInstalled | poolCleared | resets =>
    cases hs
    constructor
  | probed i now =>
    obtain ⟨call, hcall, hs⟩ := Option.bind_eq_some_iff.mp hs
    split at hs
    · next hstage =>
      cases hs
      exact .probed hcall hstage
    · cases hs
  | probeFails i =>
    obtain ⟨call, hcall, hs⟩ := Option.bind_eq_some_iff.mp hs
    split at hs
    · next hstage =>
      cases hs
      exact .rejects nofun hcall (.inl hstage) (.inl rfl)
    · cases hs
  | proceeds i =>
    obtain ⟨call, hcall, hs⟩ := Option.bind_eq_some_iff.mp hs
    split at hs
    · next hstage =>
      cases hs
      exact .proceeds hcall hstage
    · cases hs
  | prepared i =>
    obtain ⟨call, hcall, hs⟩ := Option.bind_eq_some_iff.mp hs
    split at hs
    · next hstage =>
      cases hs
      exact .prepared hcall hstage
    · cases hs
  | unprepared i lost =>
    obtain ⟨call, hcall, hs⟩ := Option.bind_eq_some_iff.mp hs
    split at hs
    · next hstage =>
      split at hs
      · cases hs
      · next hpool =>
        cases hs
        refine .rejects nofun hcall (.inr hstage) ?_
        cases lost with
        | false => exact .inl rfl
        | true => exact .inr ⟨rfl, by simpa using hpool⟩
    · cases hs
  | attempts i now =>
    obtain ⟨call, hcall, hs⟩ := Option.bind_eq_some_iff.mp hs
    split at hs
    · next policy attempt hstage =>
      obtain ⟨p, hpolicy, rfl⟩ := Option.map_eq_some_iff.mp hs
      cases hadmits : b.admits p now with
      | none => exact .refused hcall hstage hpolicy hadmits
      | some p' => exact .attempts hcall hstage hpolicy hadmits
    · cases hs
  | succeeds i =>
    obtain ⟨call, hcall, hs⟩ := Option.bind_eq_some_iff.mp hs
    split at hs
    · next hstage =>
      cases hs
      exact .succeeds hcall hstage
    · cases hs
  | fails i now =>
    obtain ⟨call, hcall, hs⟩ := Option.bind_eq_some_iff.mp hs
    split at hs
    · next hstage =>
      cases hs
      exact .fails hcall hstage
    · cases hs

/-! ## Failures -/

@[simp] theorem applyRateLimit_failures (i : Nat) (call : Call) (now : ℚ) :
    (s.applyRateLimit i call now).failures = s.failures := by
  unfold State.applyRateLimit
  split
  · rfl
  · split
    · rfl
    · split <;> rfl

/-- An attempt of this call would be let run now, and ask for a channel. -/
def State.asks (b : Breaker β) (s : State β) (i : Nat) (now : ℚ) : Bool :=
  match s.calls[i]? with
  | none => false
  | some call =>
    match call.stage with
    | .waiting policy _ =>
      call.method.fetches && (s.policies[policy]?).any fun p => (b.admits p now).isSome
    | _ => false

theorem asks_eq {i : Nat} {now : ℚ} {call : Call} {policy attempt : Nat} {p : β}
    (hcall : s.calls[i]? = some call) (hstage : call.stage = .waiting policy attempt)
    (hpolicy : s.policies[policy]? = some p) :
    s.asks b i now = (call.method.fetches && (b.admits p now).isSome) := by
  rw [State.asks, hcall]
  dsimp only
  rw [hstage]
  dsimp only
  rw [hpolicy, Option.any_some]

/-- No failure that was counted is of an attempt without a channel pool. -/
def Untripped (s : State β) : Prop := ∀ failure ∈ s.failures, failure.error ≠ .notConnected

/-- Where an attempt begins that asks for a channel, a pool is installed. -/
def Supplied (b : Breaker β) (s : State β) : Event → Prop
  | .attempts i now => s.asks b i now → s.channelPool.isSome
  | _ => True

instance (b : Breaker β) (s : State β) (event : Event) : Decidable (Supplied b s event) := by
  unfold Supplied
  split <;> infer_instance

theorem Untripped.of_eq (h : t.failures = s.failures) : Untripped t ↔ Untripped s := by
  rw [Untripped, h]
  rfl

theorem Untripped.append {failure : Failure} (h : t.failures = s.failures ++ [failure]) :
    Untripped t ↔ Untripped s ∧ failure.error ≠ .notConnected := by
  rw [Untripped, h, List.forall_mem_append, List.forall_mem_singleton]
  rfl

/-- A step adds such a failure if and only if an attempt begins that asks for a channel and finds no
pool. -/
theorem Steps.untripped (H : Steps b maxPriority s event t) :
    Untripped t ↔ Untripped s ∧ Supplied b s event := by
  cases H with
  | call | proceeds | prepared | succeeds | poolInstalled | poolCleared | resets =>
    exact (and_iff_left trivial).symm
  | probed =>
    rw [Untripped.of_eq (applyRateLimit_failures ..)]
    exact (and_iff_left trivial).symm
  | @rejects event i call error hevent =>
    have hsupplied : Supplied b s event := by
      unfold Supplied
      split
      · exact absurd rfl (hevent _ _)
      · trivial
    exact (and_iff_left hsupplied).symm
  | refused hcall hstage hpolicy hopen =>
    refine (and_iff_left fun hasks => ?_).symm
    rw [asks_eq hcall hstage hpolicy, hopen, Option.isSome_none, Bool.and_false] at hasks
    cases hasks
  | @attempts i now call policy attempt p p' hcall hstage hpolicy hadmits =>
    have hasks : s.asks b i now = call.method.fetches := by
      rw [asks_eq hcall hstage hpolicy, hadmits, Option.isSome_some, Bool.and_true]
    unfold State.attempt
    split
    · next hnone =>
      rw [Untripped.append (s := s) rfl]
      refine and_congr_right fun _ => iff_of_false (fun hne => hne rfl) fun hsupplied => ?_
      have hpool : s.channelPool.isSome := hsupplied (hasks.trans hnone.1)
      rw [show s.channelPool = none from hnone.2] at hpool
      cases hpool
    · next hnone =>
      refine (and_iff_left fun hfetches => ?_).symm
      rw [hasks] at hfetches
      exact Option.isSome_iff_ne_none.mpr fun hpool => hnone ⟨hfetches, hpool⟩
  | fails =>
    rw [Untripped.append (s := s) rfl]
    exact and_congr_right fun _ => iff_of_true nofun trivial

/-- A call without a pool rejects at once, with the first check of its arguments that throws or else
with `NOT_CONNECTED`. -/
theorem call_disconnected (hpool : s.channelPool = none) (method : Method)
    (exchangeType routingKey : Option String) (options : Options) :
    ∃ call, s.call maxPriority method exchangeType routingKey options =
        { s with calls := s.calls ++ [call] } ∧
      call.stage = .rejected
        ((check maxPriority method exchangeType routingKey options).getD .notConnected) := by
  refine ⟨_, rfl, ?_⟩
  dsimp only
  cases check maxPriority method exchangeType routingKey options with
  | some error => rfl
  | none =>
    dsimp only
    rw [hpool]
    rfl

variable {limiter : Option RateLimiter}

/-- In a run in which every attempt that the breaker lets run, and that asks for a channel, begins
with a pool installed, the breaker counts no failure of an attempt without a pool; and a step keeps
that so if and only if it is such a step. In every run, a call without a pool rejects with
`NOT_CONNECTED`, unless a check of its arguments throws, and touches neither limiter nor breaker. -/
theorem outage_contained (hr : Reach (step b maxPriority) (Supplied b) (start b limiter) s) :
    Untripped s ∧
    (∀ event t, step b maxPriority s event = some t → (Untripped t ↔ Supplied b s event)) ∧
    ∀ u, Reach (step b maxPriority) anyStep (start b limiter) u → u.channelPool = none →
      ∀ method exchangeType routingKey options, ∃ call,
        step b maxPriority u (.call method exchangeType routingKey options) =
          some { u with calls := u.calls ++ [call] } ∧
        call.stage = .rejected
          ((check maxPriority method exchangeType routingKey options).getD .notConnected) := by
  have huntripped : Untripped s := hr.invariant (fun _ hmem => absurd hmem List.not_mem_nil)
    fun h hok hs => (step_cases hs).untripped.mpr ⟨h, hok⟩
  refine ⟨huntripped, fun event t hs => ?_, fun u _ hpool method exchangeType routingKey options => ?_⟩
  · rw [(step_cases hs).untripped]
    exact and_iff_right huntripped
  · obtain ⟨call, heq, hstage⟩ := call_disconnected hpool method exchangeType routingKey options
    exact ⟨call, congrArg some heq, hstage⟩

/-! ## Losses between calls -/

/-- The call is not over. -/
def Stage.live : Stage → Bool
  | .resolved | .rejected _ => false
  | _ => true

/-- A pool is installed as long as a call is live whose attempts ask for a channel. -/
def Covered (s : State β) : Prop :=
  ∀ call ∈ s.calls, call.method.fetches → call.stage.live → s.channelPool.isSome

/-- The pool is only lost while no such call is live. -/
def Between (s : State β) (event : Event) : Prop :=
  event = .poolCleared → ∀ call ∈ s.calls, call.method.fetches → call.stage.live = false

theorem Covered.calls (h : Covered s) (hcalls : t.calls = s.calls)
    (hpool : s.channelPool.isSome → t.channelPool.isSome) : Covered t :=
  fun call hcall hfetches hlive => hpool (h call (hcalls ▸ hcall) hfetches hlive)

/-- A call goes on, that was live before. -/
theorem Covered.set (h : Covered s) {i : Nat} {call : Call} {stage : Stage}
    (hcall : s.calls[i]? = some call) (hlive : call.stage.live)
    (hcalls : t.calls = s.calls.set i { call with stage := stage })
    (hpool : t.channelPool = s.channelPool) : Covered t := by
  intro call' hmem hfetches hlive'
  rw [hpool]
  rw [hcalls] at hmem
  rcases List.mem_or_eq_of_mem_set hmem with hmem | rfl
  · exact h call' hmem hfetches hlive'
  · exact h call (List.mem_of_getElem? hcall) hfetches hlive

theorem applyRateLimit_cases (s : State β) (i : Nat) (call : Call) (now : ℚ) : ∃ stage,
    (s.applyRateLimit i call now).calls = s.calls.set i { call with stage := stage } ∧
      (s.applyRateLimit i call now).channelPool = s.channelPool := by
  unfold State.applyRateLimit
  split
  · exact ⟨_, rfl, rfl⟩
  · split
    · exact ⟨_, rfl, rfl⟩
    · split <;> exact ⟨_, rfl, rfl⟩

theorem attempt_cases (b : Breaker β) (s : State β) (i : Nat) (call : Call) (policy attempt : Nat)
    (now : ℚ) : ∃ stage,
    (s.attempt b i call policy attempt now).calls = s.calls.set i { call with stage := stage } ∧
      (s.attempt b i call policy attempt now).channelPool = s.channelPool := by
  unfold State.attempt
  split <;> exact ⟨_, rfl, rfl⟩

theorem Steps.covered (H : Steps b maxPriority s event t) (hok : Between s event) (h : Covered s) :
    Covered t := by
  cases H with
  | @call method exchangeType routingKey options =>
    intro call hmem hfetches hlive
    rcases List.mem_append.mp hmem with hmem | hmem
    · exact h call hmem hfetches hlive
    · -- a call joins alive only if there is a pool
      obtain rfl := List.mem_singleton.mp hmem
      by_contra hnone
      have hpool : s.channelPool = none := by simpa [State.call, State.join] using hnone
      rw [hpool] at hlive
      split at hlive <;> cases hlive
  | probed hcall hstage =>
    obtain ⟨stage, hcalls, hpool⟩ := applyRateLimit_cases s _ _ _
    exact h.set hcall (by rw [hstage]; rfl) hcalls hpool
  | rejects _ hcall hstage =>
    exact h.set hcall (by rcases hstage with hstage | hstage <;> rw [hstage] <;> rfl) rfl rfl
  | proceeds hcall hstage | prepared hcall hstage | refused hcall hstage | succeeds hcall hstage
  | fails hcall hstage =>
    exact h.set hcall (by rw [hstage]; rfl) rfl rfl
  | @attempts i now call policy attempt p p' hcall hstage =>
    obtain ⟨stage, hcalls, hpool⟩ := attempt_cases b
      { s with policies := s.policies.set policy p' } i call policy attempt now
    exact h.set hcall (by rw [hstage]; rfl) hcalls hpool
  | poolInstalled => exact h.calls rfl fun _ => rfl
  | poolCleared =>
    intro call hmem hfetches hlive
    cases (hok rfl call hmem hfetches).symm.trans hlive
  | resets => exact h.calls rfl id

/-- The attempts of a covered call find a pool. -/
theorem Covered.supplied (h : Covered s) (event : Event) : Supplied b s event := by
  unfold Supplied
  split
  · next i now =>
    intro hasks
    unfold State.asks at hasks
    split at hasks
    · cases hasks
    · next call hcall =>
      split at hasks
      · next hstage =>
        refine h call (List.mem_of_getElem? hcall) ?_ (by rw [hstage]; rfl)
        exact ((Bool.and_eq_true _ _).mp hasks).1
      · cases hasks
  · trivial

/-- Losses and restores between the calls add no such failure. -/
theorem between_untripped (hr : Reach (step b maxPriority) Between (start b limiter) s) :
    Untripped s := by
  have h₀ : Covered (start b limiter) ∧ Untripped (start b limiter) :=
    ⟨fun _ hmem => absurd hmem List.not_mem_nil, fun _ hmem => absurd hmem List.not_mem_nil⟩
  refine (hr.invariant (I := fun s => Covered s ∧ Untripped s) h₀ fun {s t event} h hok hs => ?_).2
  have H := step_cases hs
  exact ⟨H.covered hok h.1, H.untripped.mpr ⟨h.2, h.1.supplied event⟩⟩

/-! ## Runs -/

/-- A circuit that is closed after so many failures in a row, or open since an instant. -/
inductive Circuit where
  | closed (failures : Nat)
  | open_ (since : ℚ)
  deriving DecidableEq

/-- It opens at the threshold, and lets a probe run after the timeout. -/
def consecutive (failureThreshold : Nat) (timeout : ℚ) : Breaker Circuit where
  create := .closed 0
  admits
    | .closed failures, _ => some (.closed failures)
    | .open_ since, now => if since + timeout ≤ now then some (.open_ since) else none
  succeed _ := .closed 0
  fail
    | .closed failures, now =>
      if failures + 1 < failureThreshold then .closed (failures + 1) else .open_ now
    | .open_ _, now => .open_ now

/-- One call a minute, and the others wait. -/
private def oneAMinute : Option RateLimiter :=
  match RateLimiter.new { strategy := some "leaky-bucket", maxRequests := some 1 } with
  | .ok limiter => some limiter
  | .error _ => none

/-- The pool is lost while a call waits for its next attempt, and is there again when it begins;
another call is made in between. -/
theorem outage_contained_run : ∃ s : State Circuit, Untripped s ∧ s.failures = [⟨0, .other⟩] ∧
    s.calls.map Call.stage = [.resolved, .rejected .notConnected] := by
  have hrun : (run (step (consecutive 5 60000) 10) (Supplied (consecutive 5 60000))
      (start (consecutive 5 60000) oneAMinute) [.poolInstalled 0,
        .call .publish (some "topic") (some "orders") {}, .probed 0 0, .proceeds 0, .attempts 0 0,
        .fails 0 10, .poolCleared, .call .publishAsync (some "topic") (some "orders") {},
        .poolInstalled 1, .resets, .attempts 0 1010, .succeeds 0]).any fun s =>
          decide (s.failures = [⟨0, .other⟩] ∧
            s.calls.map Call.stage = [.resolved, .rejected .notConnected]) := by decide +kernel
  obtain ⟨s, hs, h⟩ := (Option.any_eq_true _ _).mp hrun
  obtain ⟨hfailures, hcalls⟩ := of_decide_eq_true h
  exact ⟨s, (outage_contained (reach_of_run hs)).1, hfailures, hcalls⟩

/-- The pool is lost while the second call waits in the rate limiter: all of its attempts fail, and
the breaker in place opens. -/
theorem outage_trips : ∃ s, Reach (step (consecutive 5 60000) 10) anyStep
      (start (consecutive 5 60000) oneAMinute) s ∧ s.policies = [.open_ 75000] ∧
    s.failures = List.replicate 5 ⟨0, .notConnected⟩ ∧ ¬ Untripped s := by
  have hrun : (run (step (consecutive 5 60000) 10) anyStep
      (start (consecutive 5 60000) oneAMinute) [.poolInstalled 0,
        .call .publish (some "topic") (some "orders") {}, .probed 0 0, .proceeds 0, .attempts 0 0,
        .succeeds 0, .call .publish (some "topic") (some "orders") { maxRetries := some 5 },
        .probed 1 0, .poolCleared, .proceeds 1, .attempts 1 60000, .attempts 1 61000,
        .attempts 1 63000, .attempts 1 67000, .attempts 1 75000]).any fun s =>
          decide (s.policies = [.open_ 75000] ∧
            s.failures = List.replicate 5 ⟨0, .notConnected⟩) := by decide +kernel
  obtain ⟨s, hs, h⟩ := (Option.any_eq_true _ _).mp hrun
  obtain ⟨hpolicies, hfailures⟩ := of_decide_eq_true h
  refine ⟨s, reach_of_run hs, hpolicies, hfailures, fun huntripped => ?_⟩
  have hmem : (⟨0, .notConnected⟩ : Failure) ∈ s.failures :=
    hfailures ▸ List.mem_replicate.mpr ⟨nofun, rfl⟩
  exact huntripped _ hmem rfl

end Publisher
end RabbitMQ

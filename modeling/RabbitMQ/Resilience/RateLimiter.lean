import RabbitMQ.Lib.Observation
import RabbitMQ.Resilience.Strategies.FixedWindow
import RabbitMQ.Resilience.Strategies.TokenBucket
import RabbitMQ.Resilience.Strategies.WindowLog

/-! The rate limiter: it owns the blocking of keys and the periodic sweep, and a strategy holds all
the state of the algorithm. -/

namespace RabbitMQ

inductive StrategyName where
  | tokenBucket
  | leakyBucket
  | fixedWindow
  | slidingWindow
  deriving DecidableEq

namespace RateLimiter

/-- `STRATEGIES` -/
def strategies : String → Option StrategyName
  | "token-bucket" => some .tokenBucket
  | "leaky-bucket" => some .leakyBucket
  | "fixed-window" => some .fixedWindow
  | "sliding-window" => some .slidingWindow
  | _ => none

inductive RateLimitError where
  /-- 'Unknown rate limiting strategy: …' -/
  | unknownStrategy (strategy : String)
  /-- RATE_LIMIT_COST_UNSATISFIABLE -/
  | costUnsatisfiable (cost : ℚ) (strategy : String) (capacity : ℚ)
  deriving DecidableEq

structure Options where
  windowMs : Option ℚ := none
  maxRequests : Option ℚ := none
  strategy : Option String := none
  burstable : Bool := false
  burstLimit : Option ℚ := none
  queueLimit : Option ℚ := none

/-- `value || fallback` -/
def orElse (value : Option ℚ) (fallback : ℚ) : ℚ :=
  match value with
  | none => fallback
  | some value => if value = 0 then fallback else value

/-- A strategy object with its state. -/
inductive Limiter where
  | tokenBucket (s : TokenBucketStrategy)
  | leakyBucket (s : LeakyBucketStrategy)
  | fixedWindow (s : FixedWindowStrategy)
  | slidingWindow (s : SlidingWindowStrategy)

/-- What a check resolves to, and how long it sleeps first. -/
@[ext] structure Verdict where
  allowed : Bool
  wait : ℚ := 0
  deriving DecidableEq

namespace Limiter

def capacity : Limiter → ℚ
  | .tokenBucket s => s.capacity
  | .leakyBucket s => s.capacity
  | .fixedWindow s => s.capacity
  | .slidingWindow s => s.capacity

def check (limiter : Limiter) (key : String) (cost now : ℚ) : Verdict × Limiter :=
  match limiter with
  | .tokenBucket s =>
    let (allowed, s) := s.check key cost now
    ({ allowed }, .tokenBucket s)
  | .leakyBucket s =>
    let (allowed, wait, s) := s.check key cost now
    ({ allowed, wait }, .leakyBucket s)
  | .fixedWindow s =>
    let (allowed, s) := s.check key cost now
    ({ allowed }, .fixedWindow s)
  | .slidingWindow s =>
    let (allowed, s) := s.check key cost now
    ({ allowed }, .slidingWindow s)

def remaining (limiter : Limiter) (key : String) (now : ℚ) : ℚ × Limiter :=
  match limiter with
  | .tokenBucket s =>
    let (tokens, s) := s.remaining key now
    (tokens, .tokenBucket s)
  | .leakyBucket s =>
    let (tokens, log) := s.remaining key now
    (tokens, .leakyBucket { s with toWindowLogStrategy := log })
  | .fixedWindow s => (s.remaining key now, .fixedWindow s)
  | .slidingWindow s =>
    let (tokens, log) := s.remaining key now
    (tokens, .slidingWindow ⟨log⟩)

def cleanup (limiter : Limiter) (now : ℚ) : Limiter :=
  match limiter with
  | .tokenBucket s => .tokenBucket (s.cleanup now)
  | .leakyBucket s => .leakyBucket { s with toWindowLogStrategy := s.cleanup now }
  | .fixedWindow s => .fixedWindow (s.cleanup now)
  | .slidingWindow s => .slidingWindow ⟨s.cleanup now⟩

def reset (limiter : Limiter) (key : String) : Limiter :=
  match limiter with
  | .tokenBucket s => .tokenBucket (s.reset key)
  | .leakyBucket s => .leakyBucket { s with toWindowLogStrategy := s.reset key }
  | .fixedWindow s => .fixedWindow (s.reset key)
  | .slidingWindow s => .slidingWindow ⟨s.reset key⟩

end Limiter

end RateLimiter

open RateLimiter

structure RateLimiter where
  windowMs : ℚ
  maxRequests : ℚ
  strategy : String
  burstable : Bool
  limiter : Limiter
  /-- The blocked keys, with the instant each is blocked until. -/
  blocked : OrderedMap String ℚ

structure RateLimiter.Status where
  strategy : String
  remainingTokens : ℚ
  isBlocked : Bool
  windowMs : ℚ
  maxRequests : ℚ
  burstable : Bool
  currentTime : ℚ

namespace RateLimiter

/-- `options.strategy || 'token-bucket'` -/
def Options.strategyName (options : Options) : String :=
  match options.strategy with
  | none => "token-bucket"
  | some strategy => if strategy = "" then "token-bucket" else strategy

/-- `new Strategy({ … })` -/
def Limiter.new (name : StrategyName) (maxRequests windowMs : ℚ) (burstable : Bool)
    (burstLimit queueLimit : ℚ) : Limiter :=
  match name with
  | .tokenBucket => .tokenBucket (.new maxRequests windowMs burstable burstLimit)
  | .leakyBucket => .leakyBucket (.new maxRequests windowMs queueLimit)
  | .fixedWindow => .fixedWindow (.new maxRequests windowMs)
  | .slidingWindow => .slidingWindow (.new maxRequests windowMs)

/-- A strategy that is not known fails at construction. -/
def new (options : Options) : Except RateLimitError RateLimiter :=
  let windowMs := orElse options.windowMs 60000
  let maxRequests := orElse options.maxRequests 100
  match strategies options.strategyName with
  | none => .error (.unknownStrategy options.strategyName)
  | some name => .ok {
      windowMs, maxRequests
      strategy := options.strategyName
      burstable := options.burstable
      limiter := .new name maxRequests windowMs options.burstable
        (orElse options.burstLimit (maxRequests * (3 / 2))) (orElse options.queueLimit 1000)
      blocked := .empty }

def cleanup (r : RateLimiter) (now : ℚ) : RateLimiter :=
  { r with
    limiter := r.limiter.cleanup now
    blocked := r.blocked.filter fun _ expiresAt => ¬ now ≥ expiresAt }

def checkRateLimit (r : RateLimiter) (key : String) (cost now : ℚ) :
    Except RateLimitError Verdict × RateLimiter :=
  if cost > r.limiter.capacity then
    (.error (.costUnsatisfiable cost r.strategy r.limiter.capacity), r)
  else
    match r.blocked.get? key with
    | none =>
      let (verdict, limiter) := r.limiter.check key cost now
      (.ok verdict, { r with limiter })
    | some blockedUntil =>
      if now ≥ blockedUntil then
        let (verdict, limiter) := r.limiter.check key cost now
        (.ok verdict, { r with limiter, blocked := r.blocked.erase key })
      else (.ok { allowed := false }, r)

def blockKey (r : RateLimiter) (key : String) (duration : Option ℚ) (now : ℚ) : RateLimiter :=
  { r with blocked := r.blocked.set key (now + duration.getD r.windowMs) }

def getRemainingTokens (r : RateLimiter) (key : String) (now : ℚ) : ℚ × RateLimiter :=
  let (tokens, limiter) := r.limiter.remaining key now
  (tokens, { r with limiter })

def getStatus (r : RateLimiter) (key : String) (now : ℚ) : Status × RateLimiter :=
  let isBlocked :=
    match r.blocked.get? key with
    | none => false
    | some blockedUntil => blockedUntil > now
  let (remainingTokens, limiter) := r.limiter.remaining key now
  ({ strategy := r.strategy
     remainingTokens, isBlocked
     windowMs := r.windowMs
     maxRequests := r.maxRequests
     burstable := r.burstable
     currentTime := now }, { r with limiter })

def reset (r : RateLimiter) (key : String) : RateLimiter :=
  { r with
    limiter := r.limiter.reset key
    blocked := r.blocked.erase key }

/-- What the constructor makes. -/
theorem new_cases {options : Options} {r : RateLimiter} (hnew : new options = .ok r) :
    r.windowMs ≠ 0 ∧ r.maxRequests ≠ 0 ∧ r.blocked = .empty ∧
      ((∃ burstLimit ≠ 0, strategies r.strategy = some .tokenBucket ∧ r.limiter =
        .tokenBucket (.new r.maxRequests r.windowMs r.burstable burstLimit)) ∨
      strategies r.strategy ≠ some .tokenBucket ∧
      ((∃ queueLimit, r.limiter = .leakyBucket (.new r.maxRequests r.windowMs queueLimit)) ∨
        r.limiter = .fixedWindow (.new r.maxRequests r.windowMs) ∨
        r.limiter = .slidingWindow (.new r.maxRequests r.windowMs))) := by
  have horElse : ∀ {value fallback}, fallback ≠ 0 → orElse value fallback ≠ 0 := by
    intro value fallback hfallback
    unfold orElse
    split
    · exact hfallback
    · split
      · exact hfallback
      · next hne => exact hne
  have hwindow : orElse options.windowMs 60000 ≠ 0 := horElse (by norm_num)
  have hmax : orElse options.maxRequests 100 ≠ 0 := horElse (by norm_num)
  have hburst : orElse options.burstLimit (orElse options.maxRequests 100 * (3 / 2)) ≠ 0 :=
    horElse (mul_ne_zero hmax (by norm_num))
  unfold new at hnew
  split at hnew
  · cases hnew
  · next name hname =>
    cases hnew
    refine ⟨hwindow, hmax, rfl, ?_⟩
    cases name with
    | tokenBucket => exact .inl ⟨_, hburst, hname, rfl⟩
    | leakyBucket => exact .inr ⟨fun h => (nomatch hname.symm.trans h), .inl ⟨_, rfl⟩⟩
    | fixedWindow => exact .inr ⟨fun h => (nomatch hname.symm.trans h), .inr (.inl rfl)⟩
    | slidingWindow => exact .inr ⟨fun h => (nomatch hname.symm.trans h), .inr (.inr rfl)⟩

/-! ## Runs -/

inductive Operation where
  | checkRateLimit (key : String) (cost : ℚ)
  | blockKey (key : String) (duration : Option ℚ)
  | reset (key : String)
  | getStatus (key : String)
  | getRemainingTokens (key : String)
  /-- the interval runs `#cleanup` -/
  | cleanup
  deriving DecidableEq

/-- An operation at an instant. -/
structure Call where
  now : ℚ
  operation : Operation
  deriving DecidableEq

/-- The step of a call, with the answer when it is a check. -/
def step (r : RateLimiter) (call : Call) : RateLimiter × Option (Except RateLimitError Verdict) :=
  match call.operation with
  | .checkRateLimit key cost =>
    let (answer, r) := r.checkRateLimit key cost call.now
    (r, some answer)
  | .blockKey key duration => (r.blockKey key duration call.now, none)
  | .reset key => (r.reset key, none)
  | .getStatus key => ((r.getStatus key call.now).2, none)
  | .getRemainingTokens key => ((r.getRemainingTokens key call.now).2, none)
  | .cleanup => (r.cleanup call.now, none)

/-- The reads and the sweeps. -/
def Call.observes (call : Call) : Bool :=
  match call.operation with
  | .getStatus _ | .getRemainingTokens _ | .cleanup => true
  | .checkRateLimit _ _ | .blockKey _ _ | .reset _ => false

/-- A check has a cost that is not negative. -/
def Call.CostNonneg (call : Call) : Prop :=
  ∀ key cost, call.operation = .checkRateLimit key cost → 0 ≤ cost

end RateLimiter
end RabbitMQ

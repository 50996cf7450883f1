import RabbitMQ.Lib.Number
import RabbitMQ.Lib.Timer
import RabbitMQ.Resilience.RateLimiter.Admissions

/-! The rate limiter with the arithmetic of the code: whatever it is given and computes is a number of
JavaScript, so every result is rounded, and what is not a number spreads. -/

namespace RabbitMQ
namespace Doubles

/-! ## Token buckets -/

structure Bucket where
  tokens : Number
  lastRefill : Number
  deriving DecidableEq

structure TokenBucketStrategy where
  bucketSize : Number
  refillRatePerMs : Number
  windowMs : Number
  buckets : OrderedMap String Bucket

namespace TokenBucketStrategy

def new (maxRequests windowMs : Number) (burstable : Bool) (burstLimit : Number) :
    TokenBucketStrategy where
  bucketSize := if burstable then burstLimit else maxRequests
  refillRatePerMs := maxRequests.div windowMs
  windowMs
  buckets := .empty

/-- `#bucket` -/
def bucket (s : TokenBucketStrategy) (key : String) (now : Number) : Bucket × TokenBucketStrategy :=
  match s.buckets.get? key with
  | none =>
    let bucket := ⟨s.bucketSize, now⟩
    (bucket, { s with buckets := s.buckets.set key bucket })
  | some bucket =>
    let tokensToAdd := (now.sub bucket.lastRefill).mul s.refillRatePerMs
    if (Number.finite 0).lt tokensToAdd then
      let bucket := ⟨.min s.bucketSize (bucket.tokens.add tokensToAdd), now⟩
      (bucket, { s with buckets := s.buckets.set key bucket })
    else (bucket, s)

def check (s : TokenBucketStrategy) (key : String) (cost now : Number) :
    Bool × TokenBucketStrategy :=
  let (bucket, s) := s.bucket key now
  if bucket.tokens.lt cost then (false, s)
  else (true, { s with
    buckets := s.buckets.set key { bucket with tokens := bucket.tokens.sub cost } })

def remaining (s : TokenBucketStrategy) (key : String) (now : Number) :
    Number × TokenBucketStrategy :=
  let (bucket, s) := s.bucket key now
  (bucket.tokens.floor, s)

def cleanup (s : TokenBucketStrategy) (now : Number) : TokenBucketStrategy :=
  { s with buckets := s.buckets.filter fun _ bucket =>
      ¬ (s.windowMs.mul (.finite 2)).lt (now.sub bucket.lastRefill) }

def reset (s : TokenBucketStrategy) (key : String) : TokenBucketStrategy :=
  { s with buckets := s.buckets.erase key }

end TokenBucketStrategy

/-! ## Fixed windows -/

structure Counter where
  count : Number
  windowStart : Number
  deriving DecidableEq

structure FixedWindowStrategy where
  maxRequests : Number
  windowMs : Number
  counters : OrderedMap String Counter

namespace FixedWindowStrategy

def new (maxRequests windowMs : Number) : FixedWindowStrategy := ⟨maxRequests, windowMs, .empty⟩

def windowStart (windowMs now : Number) : Number := (now.div windowMs).floor.mul windowMs

def check (s : FixedWindowStrategy) (key : String) (cost now : Number) :
    Bool × FixedWindowStrategy :=
  let start := windowStart s.windowMs now
  let stored := s.counters.get? key
  let counter := stored.getD ⟨.finite 0, start⟩
  let counter := if counter.windowStart.eq start then counter else ⟨.finite 0, start⟩
  if s.maxRequests.lt (counter.count.add cost) then
    -- a stored counter rolls over in place; a new one is not stored
    (false, if stored.isSome then { s with counters := s.counters.set key counter } else s)
  else
    (true, { s with
      counters := s.counters.set key { counter with count := counter.count.add cost } })

def remaining (s : FixedWindowStrategy) (key : String) (now : Number) : Number :=
  match s.counters.get? key with
  | none => s.maxRequests
  | some counter =>
    if counter.windowStart.eq (windowStart s.windowMs now) then s.maxRequests.sub counter.count
    else s.maxRequests

def cleanup (s : FixedWindowStrategy) (now : Number) : FixedWindowStrategy :=
  { s with counters := s.counters.filter fun _ counter =>
      counter.windowStart.eq (windowStart s.windowMs now) }

def reset (s : FixedWindowStrategy) (key : String) : FixedWindowStrategy :=
  { s with counters := s.counters.erase key }

end FixedWindowStrategy

/-! ## Window logs -/

structure LogEntry where
  timestamp : Number
  cost : Number
  deriving DecidableEq

structure WindowData where
  entries : List LogEntry
  total : Number
  deriving DecidableEq

structure WindowLogStrategy where
  limit : Number
  windowMs : Number
  windows : OrderedMap String WindowData

namespace WindowLogStrategy

def new (limit windowMs : Number) : WindowLogStrategy := ⟨limit, windowMs, .empty⟩

/-- The loop of `#evictExpired`. -/
def evict (windowMs now : Number) : List LogEntry → Number → WindowData
  | [], total => ⟨[], total⟩
  | entry :: entries, total =>
    if windowMs.lt (now.sub entry.timestamp) then evict windowMs now entries (total.sub entry.cost)
    else ⟨entry :: entries, total⟩

def evictExpired (s : WindowLogStrategy) (windowData : WindowData) (now : Number) : WindowData :=
  evict s.windowMs now windowData.entries windowData.total

/-- `#windowFor`. A new window is stored. -/
def windowFor (s : WindowLogStrategy) (key : String) : WindowData :=
  (s.windows.get? key).getD ⟨[], .finite 0⟩

/-- Admits the entry and returns the occupancy before it joined, or `none`. -/
def occupy (s : WindowLogStrategy) (key : String) (cost now : Number) :
    Option Number × WindowLogStrategy :=
  let windowData := s.evictExpired (s.windowFor key) now
  if s.limit.lt (windowData.total.add cost) then
    (none, { s with windows := s.windows.set key windowData })
  else
    (some windowData.total, { s with
      windows := s.windows.set key
        ⟨windowData.entries ++ [⟨now, cost⟩], windowData.total.add cost⟩ })

def remaining (s : WindowLogStrategy) (key : String) (now : Number) : Number × WindowLogStrategy :=
  match s.windows.get? key with
  | none => (s.limit, s)
  | some windowData =>
    let windowData := s.evictExpired windowData now
    (s.limit.sub windowData.total, { s with windows := s.windows.set key windowData })

/-- A turn of the loop of `cleanup`: the log is evicted, and dropped when it is empty. -/
def sweep (now : Number) (s : WindowLogStrategy) (key : String) : WindowLogStrategy :=
  match s.windows.get? key with
  | none => s
  | some windowData =>
    let windowData := s.evictExpired windowData now
    { s with
      windows :=
        if windowData.entries = [] then s.windows.erase key else s.windows.set key windowData }

def cleanup (s : WindowLogStrategy) (now : Number) : WindowLogStrategy :=
  s.windows.keys.foldl (sweep now) s

def reset (s : WindowLogStrategy) (key : String) : WindowLogStrategy :=
  { s with windows := s.windows.erase key }

end WindowLogStrategy

structure LeakyBucketStrategy extends WindowLogStrategy where
  leakRateMs : Number

namespace LeakyBucketStrategy

def new (maxRequests windowMs queueLimit : Number) : LeakyBucketStrategy where
  toWindowLogStrategy := .new queueLimit windowMs
  leakRateMs := windowMs.div maxRequests

/-- The answer, and what `check` passes to `clock.sleep` before it gives it: zero for no sleep. -/
def check (s : LeakyBucketStrategy) (key : String) (cost now : Number) :
    Bool × Number × LeakyBucketStrategy :=
  let (occupancyBefore, log) := s.occupy key cost now
  match occupancyBefore with
  | none => (false, .finite 0, { s with toWindowLogStrategy := log })
  | some occupancyBefore =>
    let waitTime := occupancyBefore.mul s.leakRateMs
    (true, if (Number.finite 0).lt waitTime then waitTime else .finite 0,
      { s with toWindowLogStrategy := log })

/-- How long a timer of that delay takes. -/
def slept : Number → ℚ
  | .finite waitTime => if 0 < waitTime then Timer.delay waitTime else 0
  | .posInf => 1
  | _ => 0

end LeakyBucketStrategy

/-! ## Strategies -/

inductive Limiter where
  | tokenBucket (s : TokenBucketStrategy)
  | leakyBucket (s : LeakyBucketStrategy)
  | fixedWindow (s : FixedWindowStrategy)
  | slidingWindow (s : WindowLogStrategy)

namespace Limiter

def capacity : Limiter → Number
  | .tokenBucket s => s.bucketSize
  | .leakyBucket s => s.limit
  | .fixedWindow s => s.maxRequests
  | .slidingWindow s => s.limit

/-- `new Strategy({ … })` -/
def new (name : StrategyName) (maxRequests windowMs : Number) (burstable : Bool)
    (burstLimit queueLimit : Number) : Limiter :=
  match name with
  | .tokenBucket => .tokenBucket (.new maxRequests windowMs burstable burstLimit)
  | .leakyBucket => .leakyBucket (.new maxRequests windowMs queueLimit)
  | .fixedWindow => .fixedWindow (.new maxRequests windowMs)
  | .slidingWindow => .slidingWindow (.new maxRequests windowMs)

/-- The answer, how long the check sleeps first, and the strategy it leaves. -/
def check (limiter : Limiter) (key : String) (cost now : Number) : Bool × Number × Limiter :=
  match limiter with
  | .tokenBucket s =>
    let (allowed, s) := s.check key cost now
    (allowed, .finite 0, .tokenBucket s)
  | .leakyBucket s =>
    let (allowed, wait, s) := s.check key cost now
    (allowed, wait, .leakyBucket s)
  | .fixedWindow s =>
    let (allowed, s) := s.check key cost now
    (allowed, .finite 0, .fixedWindow s)
  | .slidingWindow s =>
    let (occupancyBefore, s) := s.occupy key cost now
    (occupancyBefore.isSome, .finite 0, .slidingWindow s)

def remaining (limiter : Limiter) (key : String) (now : Number) : Number × Limiter :=
  match limiter with
  | .tokenBucket s =>
    let (tokens, s) := s.remaining key now
    (tokens, .tokenBucket s)
  | .leakyBucket s =>
    let (tokens, log) := s.remaining key now
    (tokens, .leakyBucket { s with toWindowLogStrategy := log })
  | .fixedWindow s => (s.remaining key now, .fixedWindow s)
  | .slidingWindow s =>
    let (tokens, s) := s.remaining key now
    (tokens, .slidingWindow s)

def cleanup (limiter : Limiter) (now : Number) : Limiter :=
  match limiter with
  | .tokenBucket s => .tokenBucket (s.cleanup now)
  | .leakyBucket s => .leakyBucket { s with toWindowLogStrategy := s.cleanup now }
  | .fixedWindow s => .fixedWindow (s.cleanup now)
  | .slidingWindow s => .slidingWindow (s.cleanup now)

def reset (limiter : Limiter) (key : String) : Limiter :=
  match limiter with
  | .tokenBucket s => .tokenBucket (s.reset key)
  | .leakyBucket s => .leakyBucket { s with toWindowLogStrategy := s.reset key }
  | .fixedWindow s => .fixedWindow (s.reset key)
  | .slidingWindow s => .slidingWindow (s.reset key)

/-- The step of a call of a finite cost, with the admission when it is a check that is granted. -/
def step (limiter : Limiter) (call : RateLimiter.Limiter.Call) :
    Limiter × Option RateLimiter.Admission :=
  match call.operation with
  | .check key cost =>
    let (allowed, wait, limiter) := limiter.check key (.finite cost) (.finite call.now)
    (limiter, if allowed then some ⟨key, cost, call.now, LeakyBucketStrategy.slept wait⟩ else none)
  | .remaining key => ((limiter.remaining key (.finite call.now)).2, none)
  | .cleanup => (limiter.cleanup (.finite call.now), none)

/-- What the calls of a run have admitted. -/
def admissions (limiter : Limiter) (calls : List RateLimiter.Limiter.Call) :
    List RateLimiter.Admission :=
  Observation.answers step limiter calls

/-- The state that the calls of a run have left. -/
def run (limiter : Limiter) (calls : List RateLimiter.Limiter.Call) : Limiter :=
  Observation.after step limiter calls

end Limiter

/-! ## Rate limiters -/

structure Options where
  windowMs : Option Number := none
  maxRequests : Option Number := none
  strategy : Option String := none
  burstable : Bool := false
  burstLimit : Option Number := none
  queueLimit : Option Number := none

structure RateLimiter where
  windowMs : Number
  maxRequests : Number
  strategy : String
  burstable : Bool
  limiter : Limiter
  blocked : OrderedMap String Number

/-- What `checkRateLimit` settles with. -/
inductive Answer where
  /-- RATE_LIMIT_COST_UNSATISFIABLE -/
  | unsatisfiable (cost : Number) (strategy : String) (capacity : Number)
  | resolved (allowed : Bool) (wait : Number)
  deriving DecidableEq

structure Status where
  strategy : String
  remainingTokens : Number
  isBlocked : Bool
  windowMs : Number
  maxRequests : Number
  burstable : Bool
  currentTime : Number

namespace RateLimiter

open RabbitMQ.RateLimiter (strategies RateLimitError)

/-- A strategy that is not known fails at construction. -/
def new (options : Options) : Except RateLimitError RateLimiter :=
  let windowMs := Number.orElse options.windowMs (.finite 60000)
  let maxRequests := Number.orElse options.maxRequests (.finite 100)
  let strategy := RabbitMQ.RateLimiter.Options.strategyName { strategy := options.strategy }
  match strategies strategy with
  | none => .error (.unknownStrategy strategy)
  | some name => .ok {
      windowMs, maxRequests, strategy
      burstable := options.burstable
      limiter := .new name maxRequests windowMs options.burstable
        (.orElse options.burstLimit (maxRequests.mul (.finite (3 / 2))))
        (.orElse options.queueLimit (.finite 1000))
      blocked := .empty }

def checkRateLimit (r : RateLimiter) (key : String) (cost now : Number) : Answer × RateLimiter :=
  if r.limiter.capacity.lt cost then (.unsatisfiable cost r.strategy r.limiter.capacity, r)
  else
    match r.blocked.get? key with
    | none =>
      let (allowed, wait, limiter) := r.limiter.check key cost now
      (.resolved allowed wait, { r with limiter })
    | some blockedUntil =>
      if blockedUntil.le now then
        let (allowed, wait, limiter) := r.limiter.check key cost now
        (.resolved allowed wait, { r with limiter, blocked := r.blocked.erase key })
      else (.resolved false (.finite 0), r)

def cleanup (r : RateLimiter) (now : Number) : RateLimiter :=
  { r with
    limiter := r.limiter.cleanup now
    blocked := r.blocked.filter fun _ expiresAt => ¬ expiresAt.le now }

def blockKey (r : RateLimiter) (key : String) (duration : Option Number) (now : Number) :
    RateLimiter :=
  { r with blocked := r.blocked.set key (now.add (duration.getD r.windowMs)) }

def getRemainingTokens (r : RateLimiter) (key : String) (now : Number) : Number × RateLimiter :=
  let (tokens, limiter) := r.limiter.remaining key now
  (tokens, { r with limiter })

def getStatus (r : RateLimiter) (key : String) (now : Number) : Status × RateLimiter :=
  let isBlocked :=
    match r.blocked.get? key with
    | none => false
    | some blockedUntil => now.lt blockedUntil
  let (remainingTokens, limiter) := r.limiter.remaining key now
  ({ strategy := r.strategy
     remainingTokens, isBlocked
     windowMs := r.windowMs
     maxRequests := r.maxRequests
     burstable := r.burstable
     currentTime := now }, { r with limiter })

def reset (r : RateLimiter) (key : String) : RateLimiter :=
  { r with
    limiter := r.limiter.reset key
    blocked := r.blocked.erase key }

end RateLimiter

inductive Operation where
  | checkRateLimit (key : String) (cost : Number)
  | blockKey (key : String) (duration : Option Number)
  | reset (key : String)
  | getStatus (key : String)
  | getRemainingTokens (key : String)
  /-- the interval runs `#cleanup` -/
  | cleanup
  deriving DecidableEq

/-- An operation at an instant of the clock. -/
structure Call where
  now : ℚ
  operation : Operation
  deriving DecidableEq

namespace RateLimiter

/-- The step of a call, with the answer when it is a check. -/
def step (r : RateLimiter) (call : Call) : RateLimiter × Option Answer :=
  match call.operation with
  | .checkRateLimit key cost =>
    let (answer, r) := r.checkRateLimit key cost (.finite call.now)
    (r, some answer)
  | .blockKey key duration => (r.blockKey key duration (.finite call.now), none)
  | .reset key => (r.reset key, none)
  | .getStatus key => ((r.getStatus key (.finite call.now)).2, none)
  | .getRemainingTokens key => ((r.getRemainingTokens key (.finite call.now)).2, none)
  | .cleanup => (r.cleanup (.finite call.now), none)

/-- The limiter that the calls of a run have left. -/
def run (r : RateLimiter) (calls : List Call) : RateLimiter := Observation.after step r calls

end RateLimiter

end Doubles
end RabbitMQ

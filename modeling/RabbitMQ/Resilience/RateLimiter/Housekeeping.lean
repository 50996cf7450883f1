import RabbitMQ.Resilience.RateLimiter

/-! A limiter with the interval that sweeps it, until `dispose` clears the interval. Nothing that is
asked of a limiter changes its configuration. -/

namespace RabbitMQ

open RateLimiter

namespace TokenBucketStrategy

def clear (s : TokenBucketStrategy) : TokenBucketStrategy := { s with buckets := .empty }

end TokenBucketStrategy

namespace FixedWindowStrategy

def clear (s : FixedWindowStrategy) : FixedWindowStrategy := { s with counters := .empty }

end FixedWindowStrategy

namespace WindowLogStrategy

def clear (s : WindowLogStrategy) : WindowLogStrategy := { s with windows := .empty }

/-- How many entries the logs have. -/
def logged (s : WindowLogStrategy) : Nat := (s.windows.entries.map fun e => e.2.entries.length).sum

end WindowLogStrategy

namespace RateLimiter

namespace Limiter

def clear : Limiter → Limiter
  | .tokenBucket s => .tokenBucket s.clear
  | .leakyBucket s => .leakyBucket { s with toWindowLogStrategy := s.toWindowLogStrategy.clear }
  | .fixedWindow s => .fixedWindow s.clear
  | .slidingWindow s => .slidingWindow ⟨s.toWindowLogStrategy.clear⟩

def windowMs : Limiter → ℚ
  | .tokenBucket s => s.windowMs
  | .leakyBucket s => s.windowMs
  | .fixedWindow s => s.windowMs
  | .slidingWindow s => s.windowMs

/-- The keys that a strategy holds something for. -/
def keys : Limiter → List String
  | .tokenBucket s => s.buckets.keys
  | .leakyBucket s => s.windows.keys
  | .fixedWindow s => s.counters.keys
  | .slidingWindow s => s.windows.keys

def logged : Limiter → Nat
  | .tokenBucket _ | .fixedWindow _ => 0
  | .leakyBucket s => s.logged
  | .slidingWindow s => s.logged

end Limiter

/-- All that the limiter holds: a record for each key, the entries of the logs, and the blocks. -/
def records (r : RateLimiter) : Nat :=
  r.limiter.keys.length + r.limiter.logged + r.blocked.keys.length

/-- `Math.min(Math.max(this.windowMs / 10, 100), 60000)` -/
def cleanupIntervalMs (r : RateLimiter) : ℚ := min (max (r.windowMs / 10) 100) 60000

/-- `dispose`, without the interval. -/
def dispose (r : RateLimiter) : RateLimiter :=
  { r with limiter := r.limiter.clear, blocked := .empty }

/-! ## The limiter and its interval -/

/-- A limiter with its `cleanupInterval`. -/
structure Housekept where
  rateLimiter : RateLimiter
  /-- When the interval fires next, until it is cleared. -/
  due : Option ℚ

namespace Housekept

/-- The constructor, at an instant. -/
def new (options : Options) (now : ℚ) : Except RateLimitError Housekept :=
  (RateLimiter.new options).map fun r => ⟨r, some (now + r.cleanupIntervalMs)⟩

inductive Event where
  /-- a call, or the interval fires -/
  | call (call : Call)
  | dispose (now : ℚ)
  deriving DecidableEq

def Event.now : Event → ℚ
  | .call c => c.now
  | .dispose now => now

/-- The interval does not fire before its time. It may be late. -/
def step (s : Housekept) : Event → Option Housekept
  | .call call =>
    if call.operation = .cleanup then
      match s.due with
      | none => none
      | some due =>
        if due ≤ call.now then
          some ⟨(s.rateLimiter.step call).1, some (call.now + s.rateLimiter.cleanupIntervalMs)⟩
        else none
    else some { s with rateLimiter := (s.rateLimiter.step call).1 }
  | .dispose _ => some ⟨s.rateLimiter.dispose, none⟩

def run (s : Housekept) (events : List Event) : Option Housekept := events.foldlM step s

theorem new_cases {options : Options} {now : ℚ} {s : Housekept} (hnew : new options now = .ok s) :
    ∃ r, RateLimiter.new options = .ok r ∧ s = ⟨r, some (now + r.cleanupIntervalMs)⟩ := by
  rw [Housekept.new] at hnew
  cases hr : RateLimiter.new options with
  | error e => rw [hr] at hnew; cases hnew
  | ok r => rw [hr] at hnew; cases hnew; exact ⟨r, rfl, rfl⟩

/-- What a step can be. -/
theorem step_cases {s s' : Housekept} {event : Event} (hs : s.step event = some s') :
    (∃ call, event = .call call ∧ call.operation ≠ .cleanup ∧
      s' = { s with rateLimiter := (s.rateLimiter.step call).1 }) ∨
    (∃ call due, event = .call call ∧ call.operation = .cleanup ∧ s.due = some due ∧
      s' = ⟨(s.rateLimiter.step call).1, some (call.now + s.rateLimiter.cleanupIntervalMs)⟩) ∨
    ∃ now, event = .dispose now ∧ s' = ⟨s.rateLimiter.dispose, none⟩ := by
  cases event with
  | call call =>
    rw [Housekept.step] at hs
    split at hs
    · next hcleanup =>
      split at hs
      · cases hs
      · next due hdue =>
        split at hs
        · cases hs
          exact .inr (.inl ⟨call, due, rfl, hcleanup, hdue, rfl⟩)
        · cases hs
    · next hcall =>
      cases hs
      exact .inl ⟨call, rfl, hcall, rfl⟩
  | dispose now =>
    cases hs
    exact .inr (.inr ⟨now, rfl, rfl⟩)

theorem run_cons {s s' : Housekept} {event : Event} {events : List Event}
    (hrun : s.run (event :: events) = some s') :
    ∃ s₁, s.step event = some s₁ ∧ s₁.run events = some s' := by
  rw [run, List.foldlM_cons] at hrun
  exact Option.bind_eq_some_iff.mp hrun

end Housekept

end RateLimiter

/-! ## No call changes the configuration -/

namespace TokenBucketStrategy

theorem clear_bucket (s : TokenBucketStrategy) (key : String) (now : ℚ) :
    (s.bucket key now).2.clear = s.clear := by
  obtain ⟨buckets, heq⟩ := s.bucket_snd key now
  rw [heq]
  rfl

theorem clear_check (s : TokenBucketStrategy) (key : String) (cost now : ℚ) :
    (s.check key cost now).2.clear = s.clear := by
  have hbucket := clear_bucket s key now
  unfold TokenBucketStrategy.check
  dsimp only
  split
  · exact hbucket
  · exact hbucket

end TokenBucketStrategy

namespace FixedWindowStrategy

theorem clear_check (s : FixedWindowStrategy) (key : String) (cost now : ℚ) :
    (s.check key cost now).2.clear = s.clear := by
  rw [FixedWindowStrategy.check, rolled_over]
  split
  · dsimp only
    split <;> rfl
  · rfl

end FixedWindowStrategy

namespace WindowLogStrategy

theorem clear_occupy (s : WindowLogStrategy) (key : String) (cost now : ℚ) :
    (s.occupy key cost now).2.clear = s.clear := by
  unfold WindowLogStrategy.occupy
  dsimp only
  split <;> rfl

theorem clear_remaining (s : WindowLogStrategy) (key : String) (now : ℚ) :
    (s.remaining key now).2.clear = s.clear := by
  unfold WindowLogStrategy.remaining
  split <;> rfl

theorem clear_cleanup (s : WindowLogStrategy) (now : ℚ) : (s.cleanup now).clear = s.clear := by
  rw [WindowLogStrategy.cleanup]
  generalize s.windows.keys = keys
  induction keys generalizing s with
  | nil => rfl
  | cons key keys ih =>
    rw [List.foldl_cons, ih]
    unfold sweep
    split <;> rfl

end WindowLogStrategy

namespace RateLimiter

theorem Limiter.clear_check (l : Limiter) (key : String) (cost now : ℚ) :
    (l.check key cost now).2.clear = l.clear := by
  cases l with
  | tokenBucket s => exact congrArg Limiter.tokenBucket (s.clear_check key cost now)
  | leakyBucket s =>
    have hoccupy := s.toWindowLogStrategy.clear_occupy key cost now
    dsimp only [Limiter.check, LeakyBucketStrategy.check]
    split
    all_goals
      exact congrArg (fun log => Limiter.leakyBucket { s with toWindowLogStrategy := log }) hoccupy
  | fixedWindow s => exact congrArg Limiter.fixedWindow (s.clear_check key cost now)
  | slidingWindow s =>
    have hoccupy := s.toWindowLogStrategy.clear_occupy key cost now
    exact congrArg (fun log => Limiter.slidingWindow ⟨log⟩) hoccupy

theorem Limiter.clear_remaining (l : Limiter) (key : String) (now : ℚ) :
    (l.remaining key now).2.clear = l.clear := by
  cases l with
  | tokenBucket s => exact congrArg Limiter.tokenBucket (s.clear_bucket key now)
  | leakyBucket s =>
    have hread := s.toWindowLogStrategy.clear_remaining key now
    exact congrArg (fun log => Limiter.leakyBucket { s with toWindowLogStrategy := log }) hread
  | fixedWindow s => rfl
  | slidingWindow s =>
    have hread := s.toWindowLogStrategy.clear_remaining key now
    exact congrArg (fun log => Limiter.slidingWindow ⟨log⟩) hread

theorem Limiter.clear_cleanup (l : Limiter) (now : ℚ) : (l.cleanup now).clear = l.clear := by
  cases l with
  | tokenBucket | fixedWindow => rfl
  | leakyBucket s =>
    have hswept := s.toWindowLogStrategy.clear_cleanup now
    exact congrArg (fun log => Limiter.leakyBucket { s with toWindowLogStrategy := log }) hswept
  | slidingWindow s =>
    have hswept := s.toWindowLogStrategy.clear_cleanup now
    exact congrArg (fun log => Limiter.slidingWindow ⟨log⟩) hswept

theorem Limiter.clear_reset (l : Limiter) (key : String) : (l.reset key).clear = l.clear := by
  cases l <;> rfl

theorem Limiter.windowMs_of_clear {l l' : Limiter} (h : l.clear = l'.clear) :
    l.windowMs = l'.windowMs := by
  have hkept : ∀ l : Limiter, l.clear.windowMs = l.windowMs := fun l => by cases l <;> rfl
  rw [← hkept l, h, hkept l']

theorem dispose_checkRateLimit (r : RateLimiter) (key : String) (cost now : ℚ) :
    (r.checkRateLimit key cost now).2.dispose = r.dispose := by
  have hcheck := r.limiter.clear_check key cost now
  unfold RateLimiter.checkRateLimit
  split
  · rfl
  · split
    · exact congrArg (fun limiter => { r with limiter, blocked := .empty }) hcheck
    · split
      · exact congrArg (fun limiter => { r with limiter, blocked := .empty }) hcheck
      · rfl

/-- Whatever a limiter has been asked, it is disposed of to the same limiter. -/
theorem dispose_step (r : RateLimiter) (call : Call) : (r.step call).1.dispose = r.dispose := by
  obtain ⟨now, operation⟩ := call
  cases operation with
  | checkRateLimit key cost => exact dispose_checkRateLimit r key cost now
  | blockKey key duration => rfl
  | reset key =>
    exact congrArg (fun limiter => { r with limiter, blocked := .empty })
      (r.limiter.clear_reset key)
  | getStatus key | getRemainingTokens key =>
    exact congrArg (fun limiter => { r with limiter, blocked := .empty })
      (r.limiter.clear_remaining key now)
  | cleanup =>
    exact congrArg (fun limiter => { r with limiter, blocked := .empty })
      (r.limiter.clear_cleanup now)

theorem dispose_dispose (r : RateLimiter) : r.dispose.dispose = r.dispose := by
  have hlimiter : r.limiter.clear.clear = r.limiter.clear := by cases r.limiter <;> rfl
  exact congrArg (fun limiter => { r with limiter, blocked := .empty }) hlimiter

end RateLimiter

end RabbitMQ

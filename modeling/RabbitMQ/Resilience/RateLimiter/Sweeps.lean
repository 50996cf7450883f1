import RabbitMQ.Resilience.RateLimiter

/-! Reads and sweeps are not observable: two limiters that no later reading tells apart give the
same answers, and no later reading tells a limiter from itself after a read or a sweep. The
exception is a token bucket that holds more than two windows refill, which the sweep fills up. -/

namespace RabbitMQ
namespace RateLimiter

open Meter Observation

variable {t now : ℚ}

/-! ## Limiters that agree -/

/-- Two strategy objects that no later reading tells apart, or that admit nothing. -/
inductive Limiter.Same (t : ℚ) : Limiter → Limiter → Prop
  | empty {s s' : TokenBucketStrategy} (hsize : s.bucketSize < 0)
      (heq : s.bucketSize = s'.bucketSize) : Same t (.tokenBucket s) (.tokenBucket s')
  | tokenBucket {s s' : TokenBucketStrategy} (h : s.Same t s') :
      Same t (.tokenBucket s) (.tokenBucket s')
  | leakyBucket {s s' : LeakyBucketStrategy}
      (h : s.toWindowLogStrategy.Same t s'.toWindowLogStrategy)
      (hrate : s.leakRateMs = s'.leakRateMs) : Same t (.leakyBucket s) (.leakyBucket s')
  | fixedWindow {s s' : FixedWindowStrategy} (h : s.Same t s') :
      Same t (.fixedWindow s) (.fixedWindow s')
  | slidingWindow {s s' : SlidingWindowStrategy}
      (h : s.toWindowLogStrategy.Same t s'.toWindowLogStrategy) :
      Same t (.slidingWindow s) (.slidingWindow s')

variable {l l' : Limiter} {key : String} {cost : ℚ}

theorem Limiter.Same.capacity (h : l.Same t l') : l.capacity = l'.capacity := by
  cases h with
  | empty _ heq => exact heq
  | tokenBucket h => exact h.bucketSize
  | leakyBucket h _ => exact h.limit
  | fixedWindow h => exact h.maxRequests
  | slidingWindow h => exact h.limit

theorem Limiter.Same.check (h : l.Same t l') (hle : t ≤ now) (key : String) (hcost : 0 ≤ cost)
    (hfits : cost ≤ l.capacity) : (l.check key cost now).1 = (l'.check key cost now).1 ∧
      Same now (l.check key cost now).2 (l'.check key cost now).2 := by
  cases h with
  | empty hsize _ => exact absurd (hcost.trans hfits) (not_le.mpr hsize)
  | tokenBucket h =>
    obtain ⟨heq, hsame⟩ := h.check hle key hcost
    exact ⟨Verdict.ext heq rfl, .tokenBucket hsame⟩
  | leakyBucket h hrate =>
    obtain ⟨heq, hwait, hrate, hsame⟩ := LeakyBucketStrategy.same_check h hrate hle key cost
    exact ⟨Verdict.ext heq hwait, .leakyBucket hsame hrate⟩
  | fixedWindow h =>
    obtain ⟨heq, hsame⟩ := h.check hle key cost
    exact ⟨Verdict.ext heq rfl, .fixedWindow hsame⟩
  | slidingWindow h =>
    obtain ⟨heq, hsame⟩ := SlidingWindowStrategy.same_check h hle key cost
    exact ⟨Verdict.ext heq rfl, .slidingWindow hsame⟩

theorem Limiter.Same.later (h : l.Same t l') (hle : t ≤ now) : l.Same now l' := by
  cases h with
  | empty hsize heq => exact .empty hsize heq
  | tokenBucket h => exact .tokenBucket (h.later hle)
  | leakyBucket h hrate => exact .leakyBucket (h.later hle) hrate
  | fixedWindow h => exact .fixedWindow (h.later hle)
  | slidingWindow h => exact .slidingWindow (h.later hle)

theorem Limiter.Same.reset (h : l.Same t l') (key : String) :
    (l.reset key).Same t (l'.reset key) := by
  cases h with
  | empty hsize heq => exact .empty hsize heq
  | tokenBucket h => exact .tokenBucket (h.reset key)
  | leakyBucket h hrate => exact .leakyBucket (h.reset key) hrate
  | fixedWindow h => exact .fixedWindow (h.reset key)
  | slidingWindow h => exact .slidingWindow (h.reset key)

/-- A read on one side. -/
theorem Limiter.Same.remaining_left (h : l.Same t l') (hle : t ≤ now) (key : String) :
    (l.remaining key now).2.Same now l' := by
  cases h with
  | @empty s s' hsize heq =>
    obtain ⟨buckets, hbuckets⟩ := s.bucket_snd key now
    refine .empty ?_ ?_
    · exact (congrArg TokenBucketStrategy.bucketSize hbuckets).trans_lt hsize
    · exact (congrArg TokenBucketStrategy.bucketSize hbuckets).trans heq
  | tokenBucket h => exact .tokenBucket (h.remaining_left hle key)
  | leakyBucket h hrate => exact .leakyBucket (h.remaining_left hle key) hrate
  | fixedWindow h => exact .fixedWindow (h.later hle)
  | slidingWindow h => exact .slidingWindow (h.remaining_left hle key)

/-- A sweep on one side. -/
theorem Limiter.Same.cleanup_left (h : l.Same t l') (hle : t ≤ now) :
    (l.cleanup now).Same now l' := by
  cases h with
  | empty hsize heq => exact .empty hsize heq
  | tokenBucket h => exact .tokenBucket (h.cleanup_left hle)
  | leakyBucket h hrate => exact .leakyBucket (h.cleanup_left hle) hrate
  | fixedWindow h => exact .fixedWindow (h.cleanup_left hle)
  | slidingWindow h => exact .slidingWindow (h.cleanup_left hle)

/-! ## Rate limiters that agree -/

/-- How a key reads that is blocked until an instant. -/
def blockedLevel (blockedUntil now : ℚ) : Option ℚ :=
  if now ≥ blockedUntil then none else some blockedUntil

structure Same (t : ℚ) (r r' : RateLimiter) : Prop where
  windowMs : r.windowMs = r'.windowMs
  strategy : r.strategy = r'.strategy
  limiter : r.limiter.Same t r'.limiter
  blocked : Agree blockedLevel none t r.blocked r'.blocked

variable {r r' : RateLimiter}

/-- A key that reads as free is checked, and its block is gone. -/
theorem checkRateLimit_free {r : RateLimiter} (hfits : cost ≤ r.limiter.capacity)
    (hfree : reading blockedLevel none r.blocked key now = none) :
    ∃ blocked, Agree blockedLevel none now blocked r.blocked ∧ r.checkRateLimit key cost now =
      (.ok (r.limiter.check key cost now).1,
        { r with limiter := (r.limiter.check key cost now).2, blocked }) := by
  rw [checkRateLimit, if_neg (not_lt.mpr hfits)]
  cases hget : r.blocked.get? key with
  | none => exact ⟨r.blocked, .refl _, rfl⟩
  | some blockedUntil =>
    rw [reading_of_get? hget, blockedLevel] at hfree
    split at hfree
    · next hover =>
      refine ⟨r.blocked.erase key, agree_erase fun later hlater => ?_, if_pos hover⟩
      rw [reading_of_get? hget]
      exact if_pos (hover.trans hlater)
    · cases hfree

theorem checkRateLimit_blocked {r : RateLimiter} {blockedUntil : ℚ}
    (hfits : cost ≤ r.limiter.capacity)
    (hblocked : reading blockedLevel none r.blocked key now = some blockedUntil) :
    r.checkRateLimit key cost now = (.ok { allowed := false }, r) := by
  rw [checkRateLimit, if_neg (not_lt.mpr hfits)]
  cases hget : r.blocked.get? key with
  | none =>
    rw [reading_of_get?_none hget] at hblocked
    cases hblocked
  | some blockedUntil =>
    rw [reading_of_get? hget, blockedLevel] at hblocked
    split at hblocked
    · cases hblocked
    · next hlive => exact if_neg hlive

theorem Same.checkRateLimit (h : r.Same t r') (hle : t ≤ now) (key : String) (hcost : 0 ≤ cost) :
    (r.checkRateLimit key cost now).1 = (r'.checkRateLimit key cost now).1 ∧
      (r.checkRateLimit key cost now).2.Same now (r'.checkRateLimit key cost now).2 := by
  have hcapacity := h.limiter.capacity
  have hlater : r.Same now r' :=
    ⟨h.windowMs, h.strategy, h.limiter.later hle, h.blocked.later hle⟩
  rcases lt_or_ge r.limiter.capacity cost with hover | hfits
  · rw [RateLimiter.checkRateLimit, RateLimiter.checkRateLimit, if_pos hover,
      if_pos (hcapacity ▸ hover), hcapacity, h.strategy]
    exact ⟨rfl, hlater⟩
  · have hfits' : cost ≤ r'.limiter.capacity := hcapacity ▸ hfits
    have hreads := h.blocked key now hle
    cases hblock : reading blockedLevel none r.blocked key now with
    | none =>
      obtain ⟨blocked, hagree, heq⟩ := checkRateLimit_free hfits hblock
      obtain ⟨blocked', hagree', heq'⟩ := checkRateLimit_free hfits' (hreads.symm.trans hblock)
      obtain ⟨hverdict, hsame⟩ := h.limiter.check hle key hcost hfits
      rw [heq, heq', hverdict]
      exact ⟨rfl, h.windowMs, h.strategy, hsame,
        hagree.trans ((h.blocked.later hle).trans hagree'.symm)⟩
    | some blockedUntil =>
      rw [checkRateLimit_blocked hfits hblock,
        checkRateLimit_blocked hfits' (hreads.symm.trans hblock)]
      exact ⟨rfl, hlater⟩

/-- Calls that are no observations, on both sides. -/
theorem Same.step (h : r.Same t r') {call : Call} (hle : t ≤ call.now) (hcost : call.CostNonneg)
    (hacts : call.observes = false) :
    (RateLimiter.step r call).2 = (RateLimiter.step r' call).2 ∧
      (RateLimiter.step r call).1.Same call.now (RateLimiter.step r' call).1 := by
  obtain ⟨now, operation⟩ := call
  cases operation with
  | checkRateLimit key cost =>
    obtain ⟨heq, hsame⟩ := h.checkRateLimit hle key (hcost key cost rfl)
    exact ⟨congrArg some heq, hsame⟩
  | blockKey key duration =>
    refine ⟨rfl, h.windowMs, h.strategy, h.limiter.later hle, ?_⟩
    exact (h.blocked.later hle).set fun _ _ => by rw [h.windowMs]
  | reset key =>
    exact ⟨rfl, h.windowMs, h.strategy, (h.limiter.later hle).reset key,
      (h.blocked.later hle).erase key⟩
  | getStatus | getRemainingTokens | cleanup => cases hacts

theorem agree_cleanup (blocked : OrderedMap String ℚ) (now : ℚ) :
    Agree blockedLevel none now (blocked.filter fun _ expiresAt => ¬ now ≥ expiresAt) blocked := by
  refine agree_filter fun key expiresAt _ hdropped later hlater => if_pos ?_
  exact (show expiresAt ≤ now by simpa using hdropped).trans hlater

/-- An observation on one side. -/
theorem Same.observe (h : r.Same t r') {call : Call} (hle : t ≤ call.now)
    (hobserves : call.observes = true) :
    (RateLimiter.step r call).2 = none ∧ (RateLimiter.step r call).1.Same call.now r' := by
  obtain ⟨now, operation⟩ := call
  cases operation with
  | checkRateLimit | blockKey | reset => cases hobserves
  | getStatus key =>
    exact ⟨rfl, h.windowMs, h.strategy, h.limiter.remaining_left hle key, h.blocked.later hle⟩
  | getRemainingTokens key =>
    exact ⟨rfl, h.windowMs, h.strategy, h.limiter.remaining_left hle key, h.blocked.later hle⟩
  | cleanup =>
    exact ⟨rfl, h.windowMs, h.strategy, h.limiter.cleanup_left hle,
      (agree_cleanup r.blocked now).trans (h.blocked.later hle)⟩

/-! ## Configurations -/

/-- In no run of calls with costs that are not negative does leaving out the reads and the sweeps
change an answer. -/
def Unobserved (r : RateLimiter) : Prop :=
  ∀ calls : List Call, calls.Pairwise (fun call call' => call.now ≤ call'.now) →
    (∀ call ∈ calls, call.CostNonneg) →
      answers RateLimiter.step r calls =
        answers RateLimiter.step r (calls.filter fun call => ¬ call.observes)

theorem unobserved_of_same (h : ∀ t, r.Same t r) : Unobserved r := by
  intro calls hsorted hcost
  cases calls with
  | nil => rfl
  | cons call calls =>
    have hstart := le_of_sorted hsorted
    exact answers_filter (fun hsame hle hcost hacts =>
        hsame.step hle hcost (Bool.eq_false_iff.mpr hacts))
      (fun hsame hle => hsame.observe hle) (h call.now) hstart hsorted hcost

/-- The checks of a limiter that blocks no key. -/
theorem step_check {r : RateLimiter} {s : TokenBucketStrategy} (hblocked : r.blocked = .empty)
    (hlimiter : r.limiter = .tokenBucket s) (key : String) (now : ℚ) :
    RateLimiter.step r ⟨now, .checkRateLimit key s.bucketSize⟩ =
      ({ r with limiter := .tokenBucket (s.check key s.bucketSize now).2 },
        some (.ok { allowed := (s.check key s.bucketSize now).1 })) := by
  have hcapacity : s.bucketSize ≤ r.limiter.capacity := hlimiter ▸ le_rfl
  rw [RateLimiter.step]
  dsimp only
  rw [checkRateLimit, if_neg (not_lt.mpr hcapacity), hblocked]
  dsimp only [OrderedMap.get?_empty]
  rw [hlimiter]
  rfl

/-- Drain a bucket, and ask for all of it again later. -/
def drain (cost now : ℚ) : List Call :=
  [⟨0, .checkRateLimit "" cost⟩, ⟨now, .checkRateLimit "" cost⟩]

/-- The same with a sweep before the second check. -/
def drainSwept (cost now : ℚ) : List Call :=
  [⟨0, .checkRateLimit "" cost⟩, ⟨now, .cleanup⟩, ⟨now, .checkRateLimit "" cost⟩]

theorem drainSwept_costs (hcost : 0 ≤ cost) (now : ℚ) :
    ∀ call ∈ drainSwept cost now, call.CostNonneg := by
  intro call hcall key cost' hoperation
  simp only [drainSwept, List.mem_cons, List.not_mem_nil, or_false] at hcall
  rcases hcall with rfl | rfl | rfl
  all_goals cases hoperation
  · exact hcost
  · exact hcost

/-- A sweep fills a bucket that is drained. -/
theorem observed {r : RateLimiter} {s : TokenBucketStrategy} (hblocked : r.blocked = .empty)
    (hlimiter : r.limiter = .tokenBucket s) (hempty : s.buckets = .empty) (hsize : 0 < s.bucketSize)
    (hswept : s.windowMs * 2 < now)
    (hrefill : now * s.refillRatePerMs < s.bucketSize) :
    answers RateLimiter.step r (drain s.bucketSize now) =
        [.ok { allowed := true }, .ok { allowed := false }] ∧
      answers RateLimiter.step r (drainSwept s.bucketSize now) =
        [.ok { allowed := true }, .ok { allowed := true }] := by
  have habsent : s.buckets.get? "" = none := by rw [hempty, OrderedMap.get?_empty]
  obtain ⟨buckets, hfirst, hdrained⟩ := TokenBucketStrategy.check_new habsent 0
  have hfirst := hfirst ▸ step_check hblocked hlimiter "" 0
  let s₁ : TokenBucketStrategy := { s with buckets }
  let r₁ : RateLimiter := { r with limiter := .tokenBucket s₁ }
  constructor
  · have hkept : (s₁.check "" s₁.bucketSize now).1 = false :=
      TokenBucketStrategy.check_drained hdrained hsize (by rwa [sub_zero])
    have hsecond := step_check (r := r₁) hblocked rfl "" now
    rw [hkept] at hsecond
    rw [drain, answers, hfirst, answers, hsecond]
    rfl
  · have hgone : (s₁.cleanup now).buckets.get? "" = none :=
      TokenBucketStrategy.cleanup_get? hdrained (by rwa [sub_zero])
    obtain ⟨buckets', hagain, -⟩ := TokenBucketStrategy.check_new hgone now
    have hblocked₁ : (r₁.cleanup now).blocked = .empty := by
      rw [RateLimiter.cleanup, show r₁.blocked = .empty from hblocked]
      rfl
    have hsecond := step_check hblocked₁ rfl "" now
    rw [hagain] at hsecond
    have hrest : answers RateLimiter.step (r₁.cleanup now)
        [⟨now, .checkRateLimit "" s.bucketSize⟩] = [.ok { allowed := true }] := by
      rw [answers]
      exact congrArg (fun next => next.2.toList ++ answers RateLimiter.step next.1 []) hsecond
    rw [drainSwept, answers, hfirst, answers]
    exact congrArg (Except.ok { allowed := true } :: ·) hrest

/-- Reads and sweeps change no answer, except that a token bucket that holds more than two windows
refill is filled by the sweep. -/
theorem unobserved_iff {options : Options} {r : RateLimiter} (hnew : new options = .ok r) :
    Unobserved r ↔ (strategies r.strategy = some .tokenBucket → r.limiter.capacity < 0 ∨
      0 < r.windowMs ∧ r.limiter.capacity ≤ 2 * r.maxRequests) := by
  obtain ⟨hwindow, hmax, hblocked, hlimiter⟩ := new_cases hnew
  have hsame (h : ∀ t, r.limiter.Same t r.limiter) : Unobserved r :=
    unobserved_of_same fun t => ⟨rfl, rfl, h t, .refl _⟩
  rcases hlimiter with ⟨burstLimit, hburst, hstrategy, hlimiter⟩ | ⟨hstrategy, hlimiter⟩
  · let s := TokenBucketStrategy.new r.maxRequests r.windowMs r.burstable burstLimit
    have hcapacity : r.limiter.capacity = s.bucketSize := by rw [hlimiter]; rfl
    have hsize : s.bucketSize ≠ 0 := by
      dsimp only [s, TokenBucketStrategy.new]
      split
      · exact hburst
      · exact hmax
    rw [hcapacity]
    refine ⟨fun h _ => ?_, fun h => hsame fun t => ?_⟩
    · by_contra hover
      obtain ⟨hpos, hover⟩ := not_or.mp hover
      have hpos : 0 < s.bucketSize := lt_of_le_of_ne (not_lt.mp hpos) hsize.symm
      obtain ⟨now, hnow, hswept, hrefill⟩ :=
        TokenBucketStrategy.sweep_too_early hmax hwindow hpos hover
      obtain ⟨hkept, hfilled⟩ := observed hblocked hlimiter rfl hpos hswept hrefill
      have heq := h (drainSwept s.bucketSize now) (by simp [drainSwept, hnow])
        (drainSwept_costs hpos.le now)
      have hfilter : ((drainSwept s.bucketSize now).filter fun call => ¬ call.observes) =
          drain s.bucketSize now := rfl
      rw [hfilter, hkept, hfilled] at heq
      cases heq
    · rw [hlimiter]
      rcases h hstrategy with hneg | ⟨hpos, hfull⟩
      · exact .empty hneg rfl
      · rcases lt_or_gt_of_ne hsize with hneg | hsize
        · exact .empty hneg rfl
        · have hkept := TokenBucketStrategy.kept_new hsize hpos hfull t
          exact .tokenBucket ⟨rfl, rfl, hkept, hkept, .refl _⟩
  · refine iff_of_true (hsame fun t => ?_) fun h => absurd h hstrategy
    rcases hlimiter with ⟨queueLimit, hlimiter⟩ | hlimiter | hlimiter
    · rw [hlimiter]
      exact .leakyBucket ⟨rfl, rfl, WindowLogStrategy.kept_new _ _,
        WindowLogStrategy.kept_new _ _, .refl _⟩ rfl
    · rw [hlimiter]
      exact .fixedWindow ⟨rfl, rfl, FixedWindowStrategy.kept_new _ _ _,
        FixedWindowStrategy.kept_new _ _ _, .refl _⟩
    · rw [hlimiter]
      exact .slidingWindow ⟨rfl, rfl, WindowLogStrategy.kept_new _ _,
        WindowLogStrategy.kept_new _ _, .refl _⟩

/-- Ten requests a second, with bursts of a hundred. -/
def bursts : Options where
  windowMs := some 1000
  maxRequests := some 10
  burstable := true
  burstLimit := some 100

/-- The default configuration. -/
theorem unobserved_default : ∃ r, new {} = .ok r ∧ Unobserved r := by
  refine ⟨_, rfl, ?_⟩
  exact (unobserved_iff (show new ({} : Options) = _ from rfl)).mpr fun _ => .inr (by decide +kernel)

/-- A burst, and the same burst again two seconds later: the sweep in between admits it. -/
theorem burst_admitted_by_sweep : ∃ r, new bursts = .ok r ∧ ¬ Unobserved r := by
  refine ⟨_, rfl, fun h => ?_⟩
  have heq := h (drainSwept 100 2001) (by decide +kernel) (drainSwept_costs (by norm_num) 2001)
  revert heq
  decide +kernel

end RateLimiter
end RabbitMQ

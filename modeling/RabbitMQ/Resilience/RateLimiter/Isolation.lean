import RabbitMQ.Resilience.RateLimiter

/-! Keys do not see each other. Whatever is asked, admitted, blocked or reset for other keys, a key
is told what it would have been told without them. -/

namespace RabbitMQ

open Observation

/-- What a filter leaves of a key depends on what the key had. -/
theorem OrderedMap.get?_filter_congr {κ ν : Type*} [DecidableEq κ] {m m' : OrderedMap κ ν} {k : κ}
    (h : m.get? k = m'.get? k) (p : κ → ν → Bool) :
    (m.filter p).get? k = (m'.filter p).get? k :=
  Option.ext fun v => by rw [OrderedMap.get?_filter, OrderedMap.get?_filter, h]

/-! ## Two stores that have the same for one key -/

namespace TokenBucketStrategy

structure SameAt (key : String) (s s' : TokenBucketStrategy) : Prop where
  bucketSize : s.bucketSize = s'.bucketSize
  refillRatePerMs : s.refillRatePerMs = s'.refillRatePerMs
  windowMs : s.windowMs = s'.windowMs
  buckets : s.buckets.get? key = s'.buckets.get? key

variable {s s' : TokenBucketStrategy} {key other : String}

theorem SameAt.eq_with (h : SameAt key s s') :
    ∃ buckets, s.buckets.get? key = buckets.get? key ∧ s' = { s with buckets } := by
  obtain ⟨size, rate, windowMs, buckets⟩ := s
  obtain ⟨hsize, hrate, hwindowMs, hget⟩ := h
  dsimp only at hsize hrate hwindowMs
  subst hsize hrate hwindowMs
  exact ⟨s'.buckets, hget, rfl⟩

theorem SameAt.set (h : SameAt key s s') (bucket : Bucket) :
    SameAt key { s with buckets := s.buckets.set key bucket }
      { s' with buckets := s'.buckets.set key bucket } := by
  refine ⟨h.bucketSize, h.refillRatePerMs, h.windowMs, ?_⟩
  exact (OrderedMap.get?_set_self _ _ _).trans (OrderedMap.get?_set_self _ _ _).symm

theorem sameAt_set (hne : key ≠ other) (bucket : Bucket) :
    SameAt key { s with buckets := s.buckets.set other bucket } s :=
  ⟨rfl, rfl, rfl, (OrderedMap.get?_set _ _ _ _).trans (if_neg hne)⟩

theorem SameAt.trans {s'' : TokenBucketStrategy} (h : SameAt key s s') (h' : SameAt key s' s'') :
    SameAt key s s'' :=
  ⟨h.bucketSize.trans h'.bucketSize, h.refillRatePerMs.trans h'.refillRatePerMs,
    h.windowMs.trans h'.windowMs, h.buckets.trans h'.buckets⟩

theorem SameAt.bucket (h : SameAt key s s') (now : ℚ) : (s.bucket key now).1 = (s'.bucket key now).1 ∧
    SameAt key (s.bucket key now).2 (s'.bucket key now).2 := by
  obtain ⟨buckets, hget, rfl⟩ := h.eq_with
  unfold TokenBucketStrategy.bucket
  dsimp only
  rw [← hget]
  cases s.buckets.get? key with
  | none => exact ⟨rfl, h.set _⟩
  | some bucket =>
    dsimp only
    split
    · exact ⟨rfl, h.set _⟩
    · exact ⟨rfl, h⟩

theorem sameAt_bucket (s : TokenBucketStrategy) (hne : key ≠ other) (now : ℚ) :
    SameAt key (s.bucket other now).2 s := by
  unfold TokenBucketStrategy.bucket
  split
  · exact sameAt_set hne _
  · dsimp only
    split
    · exact sameAt_set hne _
    · exact ⟨rfl, rfl, rfl, rfl⟩

theorem SameAt.check (h : SameAt key s s') (cost now : ℚ) :
    (s.check key cost now).1 = (s'.check key cost now).1 ∧
      SameAt key (s.check key cost now).2 (s'.check key cost now).2 := by
  obtain ⟨hbucket, hsame⟩ := h.bucket now
  unfold TokenBucketStrategy.check
  dsimp only
  rw [hbucket]
  split
  · exact ⟨rfl, hsame⟩
  · exact ⟨rfl, hsame.set _⟩

theorem sameAt_check (s : TokenBucketStrategy) (hne : key ≠ other) (cost now : ℚ) :
    SameAt key (s.check other cost now).2 s := by
  have hbucket := sameAt_bucket s hne now
  unfold TokenBucketStrategy.check
  dsimp only
  split
  · exact hbucket
  · exact (sameAt_set hne _).trans hbucket

theorem SameAt.remaining (h : SameAt key s s') (now : ℚ) :
    (s.remaining key now).1 = (s'.remaining key now).1 ∧
      SameAt key (s.remaining key now).2 (s'.remaining key now).2 := by
  obtain ⟨hbucket, hsame⟩ := h.bucket now
  exact ⟨congrArg (fun bucket : Bucket => ⌊bucket.tokens⌋) hbucket, hsame⟩

theorem SameAt.cleanup (h : SameAt key s s') (now : ℚ) :
    SameAt key (s.cleanup now) (s'.cleanup now) := by
  refine ⟨h.bucketSize, h.refillRatePerMs, h.windowMs, ?_⟩
  unfold TokenBucketStrategy.cleanup
  rw [h.windowMs]
  exact OrderedMap.get?_filter_congr h.buckets _

theorem SameAt.reset (h : SameAt key s s') : SameAt key (s.reset key) (s'.reset key) :=
  ⟨h.bucketSize, h.refillRatePerMs, h.windowMs,
    (OrderedMap.get?_erase_self _ _).trans (OrderedMap.get?_erase_self _ _).symm⟩

theorem sameAt_reset (s : TokenBucketStrategy) (hne : key ≠ other) : SameAt key (s.reset other) s :=
  ⟨rfl, rfl, rfl, (OrderedMap.get?_erase _ _ _).trans (if_neg hne)⟩

end TokenBucketStrategy

namespace FixedWindowStrategy

structure SameAt (key : String) (s s' : FixedWindowStrategy) : Prop where
  maxRequests : s.maxRequests = s'.maxRequests
  windowMs : s.windowMs = s'.windowMs
  counters : s.counters.get? key = s'.counters.get? key

variable {s s' : FixedWindowStrategy} {key other : String}

theorem SameAt.eq_with (h : SameAt key s s') :
    ∃ counters, s.counters.get? key = counters.get? key ∧ s' = { s with counters } := by
  obtain ⟨maxRequests, windowMs, counters⟩ := s
  obtain ⟨hmax, hwindowMs, hget⟩ := h
  dsimp only at hmax hwindowMs
  subst hmax hwindowMs
  exact ⟨s'.counters, hget, rfl⟩

theorem SameAt.trans {s'' : FixedWindowStrategy} (h : SameAt key s s') (h' : SameAt key s' s'') :
    SameAt key s s'' :=
  ⟨h.maxRequests.trans h'.maxRequests, h.windowMs.trans h'.windowMs, h.counters.trans h'.counters⟩

theorem SameAt.set (h : SameAt key s s') (counter : Counter) :
    SameAt key { s with counters := s.counters.set key counter }
      { s' with counters := s'.counters.set key counter } := by
  refine ⟨h.maxRequests, h.windowMs, ?_⟩
  exact (OrderedMap.get?_set_self _ _ _).trans (OrderedMap.get?_set_self _ _ _).symm

theorem sameAt_set (hne : key ≠ other) (counter : Counter) :
    SameAt key { s with counters := s.counters.set other counter } s :=
  ⟨rfl, rfl, (OrderedMap.get?_set _ _ _ _).trans (if_neg hne)⟩

theorem SameAt.check (h : SameAt key s s') (cost now : ℚ) :
    (s.check key cost now).1 = (s'.check key cost now).1 ∧
      SameAt key (s.check key cost now).2 (s'.check key cost now).2 := by
  obtain ⟨counters, hget, rfl⟩ := h.eq_with
  unfold FixedWindowStrategy.check
  dsimp only
  rw [← hget]
  generalize (if ((s.counters.get? key).getD ⟨0, windowStart s.windowMs now⟩).windowStart ≠
    windowStart s.windowMs now then (⟨0, windowStart s.windowMs now⟩ : Counter)
    else (s.counters.get? key).getD ⟨0, windowStart s.windowMs now⟩) = counter
  split
  · split
    · exact ⟨rfl, h.set _⟩
    · exact ⟨rfl, h⟩
  · exact ⟨rfl, h.set _⟩

theorem sameAt_check (s : FixedWindowStrategy) (hne : key ≠ other) (cost now : ℚ) :
    SameAt key (s.check other cost now).2 s := by
  unfold FixedWindowStrategy.check
  dsimp only
  generalize (if ((s.counters.get? other).getD ⟨0, windowStart s.windowMs now⟩).windowStart ≠
    windowStart s.windowMs now then (⟨0, windowStart s.windowMs now⟩ : Counter)
    else (s.counters.get? other).getD ⟨0, windowStart s.windowMs now⟩) = counter
  split
  · split
    · exact sameAt_set hne _
    · exact ⟨rfl, rfl, rfl⟩
  · exact sameAt_set hne _

theorem SameAt.remaining (h : SameAt key s s') (now : ℚ) :
    s.remaining key now = s'.remaining key now := by
  unfold FixedWindowStrategy.remaining
  rw [h.counters, h.windowMs, h.maxRequests]

theorem SameAt.cleanup (h : SameAt key s s') (now : ℚ) :
    SameAt key (s.cleanup now) (s'.cleanup now) := by
  refine ⟨h.maxRequests, h.windowMs, ?_⟩
  unfold FixedWindowStrategy.cleanup
  rw [h.windowMs]
  exact OrderedMap.get?_filter_congr h.counters _

theorem SameAt.reset (h : SameAt key s s') : SameAt key (s.reset key) (s'.reset key) :=
  ⟨h.maxRequests, h.windowMs,
    (OrderedMap.get?_erase_self _ _).trans (OrderedMap.get?_erase_self _ _).symm⟩

theorem sameAt_reset (s : FixedWindowStrategy) (hne : key ≠ other) : SameAt key (s.reset other) s :=
  ⟨rfl, rfl, (OrderedMap.get?_erase _ _ _).trans (if_neg hne)⟩

end FixedWindowStrategy

namespace WindowLogStrategy

structure SameAt (key : String) (s s' : WindowLogStrategy) : Prop where
  limit : s.limit = s'.limit
  windowMs : s.windowMs = s'.windowMs
  windows : s.windows.get? key = s'.windows.get? key

variable {s s' : WindowLogStrategy} {key other : String}

theorem SameAt.eq_with (h : SameAt key s s') :
    ∃ windows, s.windows.get? key = windows.get? key ∧ s' = { s with windows } := by
  obtain ⟨limit, windowMs, windows⟩ := s
  obtain ⟨hlimit, hwindowMs, hget⟩ := h
  dsimp only at hlimit hwindowMs
  subst hlimit hwindowMs
  exact ⟨s'.windows, hget, rfl⟩

theorem SameAt.refl (s : WindowLogStrategy) : SameAt key s s := ⟨rfl, rfl, rfl⟩

theorem SameAt.trans {s'' : WindowLogStrategy} (h : SameAt key s s') (h' : SameAt key s' s'') :
    SameAt key s s'' :=
  ⟨h.limit.trans h'.limit, h.windowMs.trans h'.windowMs, h.windows.trans h'.windows⟩

theorem SameAt.set (h : SameAt key s s') (windowData : WindowData) :
    SameAt key { s with windows := s.windows.set key windowData }
      { s' with windows := s'.windows.set key windowData } := by
  refine ⟨h.limit, h.windowMs, ?_⟩
  exact (OrderedMap.get?_set_self _ _ _).trans (OrderedMap.get?_set_self _ _ _).symm

theorem sameAt_set (hne : key ≠ other) (windowData : WindowData) :
    SameAt key { s with windows := s.windows.set other windowData } s :=
  ⟨rfl, rfl, (OrderedMap.get?_set _ _ _ _).trans (if_neg hne)⟩

theorem SameAt.reset (h : SameAt key s s') : SameAt key (s.reset key) (s'.reset key) :=
  ⟨h.limit, h.windowMs,
    (OrderedMap.get?_erase_self _ _).trans (OrderedMap.get?_erase_self _ _).symm⟩

theorem sameAt_reset (s : WindowLogStrategy) (hne : key ≠ other) : SameAt key (s.reset other) s :=
  ⟨rfl, rfl, (OrderedMap.get?_erase _ _ _).trans (if_neg hne)⟩

theorem SameAt.occupy (h : SameAt key s s') (cost now : ℚ) :
    (s.occupy key cost now).1 = (s'.occupy key cost now).1 ∧
      SameAt key (s.occupy key cost now).2 (s'.occupy key cost now).2 := by
  obtain ⟨windows, hget, rfl⟩ := h.eq_with
  unfold WindowLogStrategy.occupy windowFor evictExpired
  dsimp only
  rw [← hget]
  split <;> exact ⟨rfl, h.set _⟩

theorem sameAt_occupy (s : WindowLogStrategy) (hne : key ≠ other) (cost now : ℚ) :
    SameAt key (s.occupy other cost now).2 s := by
  unfold WindowLogStrategy.occupy
  dsimp only
  split <;> exact sameAt_set hne _

theorem SameAt.remaining (h : SameAt key s s') (now : ℚ) :
    (s.remaining key now).1 = (s'.remaining key now).1 ∧
      SameAt key (s.remaining key now).2 (s'.remaining key now).2 := by
  obtain ⟨windows, hget, rfl⟩ := h.eq_with
  unfold WindowLogStrategy.remaining evictExpired
  dsimp only
  rw [← hget]
  cases s.windows.get? key with
  | none => exact ⟨rfl, h⟩
  | some windowData => exact ⟨rfl, h.set _⟩

theorem sameAt_remaining (s : WindowLogStrategy) (hne : key ≠ other) (now : ℚ) :
    SameAt key (s.remaining other now).2 s := by
  unfold WindowLogStrategy.remaining
  split
  · exact .refl s
  · exact sameAt_set hne _

/-! The sweep of a log is one turn for each key, and only its own turn is seen by a key. -/

theorem SameAt.sweep (h : SameAt key s s') (now : ℚ) :
    SameAt key (s.sweep now key) (s'.sweep now key) := by
  obtain ⟨windows, hget, rfl⟩ := h.eq_with
  unfold WindowLogStrategy.sweep evictExpired
  dsimp only
  rw [← hget]
  cases s.windows.get? key with
  | none => exact h
  | some windowData =>
    dsimp only
    split
    · exact h.reset
    · exact h.set _

theorem sameAt_sweep (s : WindowLogStrategy) (hne : key ≠ other) (now : ℚ) :
    SameAt key (s.sweep now other) s := by
  unfold WindowLogStrategy.sweep
  split
  · exact .refl s
  · dsimp only
    split
    · exact sameAt_reset s hne
    · exact sameAt_set hne _

theorem sameAt_foldl_sweep (s : WindowLogStrategy) (now : ℚ) {keys : List String}
    (hnodup : keys.Nodup) : SameAt key (keys.foldl (sweep now) s)
      (if key ∈ keys then s.sweep now key else s) := by
  induction keys generalizing s with
  | nil => exact .refl s
  | cons other keys ih =>
    obtain ⟨hnot, hnodup⟩ := List.nodup_cons.mp hnodup
    have hrest := ih (s.sweep now other) hnodup
    rw [List.foldl_cons]
    by_cases heq : key = other
    · subst heq
      rw [if_neg hnot] at hrest
      rw [if_pos List.mem_cons_self]
      exact hrest
    · rw [if_congr (List.mem_cons.trans (or_iff_right heq)) rfl rfl]
      refine hrest.trans ?_
      split
      · exact (sameAt_sweep s heq now).sweep now
      · exact sameAt_sweep s heq now

theorem sameAt_cleanup (s : WindowLogStrategy) (now : ℚ) :
    SameAt key (s.cleanup now) (s.sweep now key) := by
  have hturns : SameAt key (s.cleanup now)
      (if key ∈ s.windows.keys then s.sweep now key else s) :=
    sameAt_foldl_sweep s now s.windows.keys_nodup
  split at hturns
  · exact hturns
  · next hnot =>
    have hsweep : s.sweep now key = s := by
      rw [WindowLogStrategy.sweep, OrderedMap.not_mem_iff.mp hnot]
    rw [hsweep]
    exact hturns

theorem SameAt.symm (h : SameAt key s s') : SameAt key s' s :=
  ⟨h.limit.symm, h.windowMs.symm, h.windows.symm⟩

theorem SameAt.cleanup (h : SameAt key s s') (now : ℚ) :
    SameAt key (s.cleanup now) (s'.cleanup now) :=
  ((sameAt_cleanup s now).trans (h.sweep now)).trans (sameAt_cleanup s' now).symm

end WindowLogStrategy

/-- A check of a leaky bucket answers by what its log answers. -/
theorem LeakyBucketStrategy.sameAt_check {s s' : LeakyBucketStrategy} {key : String}
    (h : s.toWindowLogStrategy.SameAt key s'.toWindowLogStrategy)
    (hrate : s.leakRateMs = s'.leakRateMs) (cost now : ℚ) :
    (s.check key cost now).1 = (s'.check key cost now).1 ∧
      (s.check key cost now).2.1 = (s'.check key cost now).2.1 ∧
      (s.check key cost now).2.2.toWindowLogStrategy.SameAt key
        (s'.check key cost now).2.2.toWindowLogStrategy := by
  obtain ⟨hanswer, hsame⟩ := h.occupy cost now
  rw [check, check, ← hrate]
  generalize s.occupy key cost now = occupied at hanswer hsame
  generalize s'.occupy key cost now = occupied' at hanswer hsame
  obtain ⟨occupancyBefore, log⟩ := occupied
  obtain ⟨occupancyBefore', log'⟩ := occupied'
  cases hanswer
  cases occupancyBefore with
  | none => exact ⟨rfl, rfl, hsame⟩
  | some occupancyBefore => exact ⟨rfl, rfl, hsame⟩

/-- The log after a check of a leaky bucket. -/
theorem LeakyBucketStrategy.check_frame (s : LeakyBucketStrategy) (key : String) (cost now : ℚ) :
    (s.check key cost now).2.2.toWindowLogStrategy = (s.occupy key cost now).2 ∧
      (s.check key cost now).2.2.leakRateMs = s.leakRateMs := by
  unfold LeakyBucketStrategy.check
  dsimp only
  split
  · exact ⟨rfl, rfl⟩
  · exact ⟨rfl, rfl⟩

namespace RateLimiter

inductive Limiter.SameAt (key : String) : Limiter → Limiter → Prop
  | tokenBucket {s s' : TokenBucketStrategy} (h : s.SameAt key s') :
      SameAt key (.tokenBucket s) (.tokenBucket s')
  | leakyBucket {s s' : LeakyBucketStrategy}
      (h : s.toWindowLogStrategy.SameAt key s'.toWindowLogStrategy)
      (hrate : s.leakRateMs = s'.leakRateMs) : SameAt key (.leakyBucket s) (.leakyBucket s')
  | fixedWindow {s s' : FixedWindowStrategy} (h : s.SameAt key s') :
      SameAt key (.fixedWindow s) (.fixedWindow s')
  | slidingWindow {s s' : SlidingWindowStrategy}
      (h : s.toWindowLogStrategy.SameAt key s'.toWindowLogStrategy) :
      SameAt key (.slidingWindow s) (.slidingWindow s')

namespace Limiter

variable {l l' : Limiter} {key other : String}

theorem SameAt.capacity (h : SameAt key l l') : l.capacity = l'.capacity := by
  cases h with
  | tokenBucket h => exact h.bucketSize
  | leakyBucket h _ => exact h.limit
  | fixedWindow h => exact h.maxRequests
  | slidingWindow h => exact h.limit

theorem SameAt.check (h : SameAt key l l') (cost now : ℚ) :
    (l.check key cost now).1 = (l'.check key cost now).1 ∧
      SameAt key (l.check key cost now).2 (l'.check key cost now).2 := by
  cases h with
  | tokenBucket h =>
    obtain ⟨hanswer, hsame⟩ := h.check cost now
    exact ⟨congrArg (fun allowed => ({ allowed } : Verdict)) hanswer, .tokenBucket hsame⟩
  | @leakyBucket s s' h hrate =>
    obtain ⟨hallowed, hwait, hsame⟩ := LeakyBucketStrategy.sameAt_check h hrate cost now
    have hrates : (s.check key cost now).2.2.leakRateMs = (s'.check key cost now).2.2.leakRateMs :=
      (s.check_frame key cost now).2.trans (hrate.trans (s'.check_frame key cost now).2.symm)
    exact ⟨Verdict.ext hallowed hwait, .leakyBucket hsame hrates⟩
  | fixedWindow h =>
    obtain ⟨hanswer, hsame⟩ := h.check cost now
    exact ⟨congrArg (fun allowed => ({ allowed } : Verdict)) hanswer, .fixedWindow hsame⟩
  | slidingWindow h =>
    obtain ⟨hanswer, hsame⟩ := h.occupy cost now
    exact ⟨congrArg (fun before : Option ℚ => ({ allowed := before.isSome } : Verdict)) hanswer,
      .slidingWindow hsame⟩

theorem sameAt_check (l : Limiter) (hne : key ≠ other) (cost now : ℚ) :
    SameAt key (l.check other cost now).2 l := by
  cases l with
  | tokenBucket s => exact .tokenBucket (s.sameAt_check hne cost now)
  | leakyBucket s =>
    obtain ⟨hlog, hrate⟩ := s.check_frame other cost now
    have hsame : (s.check other cost now).2.2.toWindowLogStrategy.SameAt key
        s.toWindowLogStrategy := by
      rw [hlog]
      exact s.sameAt_occupy hne cost now
    exact .leakyBucket hsame hrate
  | fixedWindow s => exact .fixedWindow (s.sameAt_check hne cost now)
  | slidingWindow s => exact .slidingWindow (s.sameAt_occupy hne cost now)

theorem SameAt.remaining (h : SameAt key l l') (now : ℚ) :
    (l.remaining key now).1 = (l'.remaining key now).1 ∧
      SameAt key (l.remaining key now).2 (l'.remaining key now).2 := by
  cases h with
  | tokenBucket h =>
    obtain ⟨htokens, hsame⟩ := h.remaining now
    exact ⟨congrArg Int.cast htokens, .tokenBucket hsame⟩
  | leakyBucket h hrate =>
    obtain ⟨htokens, hsame⟩ := h.remaining now
    exact ⟨htokens, .leakyBucket hsame hrate⟩
  | fixedWindow h => exact ⟨h.remaining now, .fixedWindow h⟩
  | slidingWindow h =>
    obtain ⟨htokens, hsame⟩ := h.remaining now
    exact ⟨htokens, .slidingWindow hsame⟩

theorem sameAt_remaining (l : Limiter) (hne : key ≠ other) (now : ℚ) :
    SameAt key (l.remaining other now).2 l := by
  cases l with
  | tokenBucket s => exact .tokenBucket (s.sameAt_bucket hne now)
  | leakyBucket s => exact .leakyBucket (s.sameAt_remaining hne now) rfl
  | fixedWindow s => exact .fixedWindow ⟨rfl, rfl, rfl⟩
  | slidingWindow s => exact .slidingWindow (s.sameAt_remaining hne now)

theorem SameAt.cleanup (h : SameAt key l l') (now : ℚ) :
    SameAt key (l.cleanup now) (l'.cleanup now) := by
  cases h with
  | tokenBucket h => exact .tokenBucket (h.cleanup now)
  | leakyBucket h hrate => exact .leakyBucket (h.cleanup now) hrate
  | fixedWindow h => exact .fixedWindow (h.cleanup now)
  | slidingWindow h => exact .slidingWindow (h.cleanup now)

theorem SameAt.reset (h : SameAt key l l') : SameAt key (l.reset key) (l'.reset key) := by
  cases h with
  | tokenBucket h => exact .tokenBucket h.reset
  | leakyBucket h hrate => exact .leakyBucket h.reset hrate
  | fixedWindow h => exact .fixedWindow h.reset
  | slidingWindow h => exact .slidingWindow h.reset

theorem sameAt_reset (l : Limiter) (hne : key ≠ other) : SameAt key (l.reset other) l := by
  cases l with
  | tokenBucket s => exact .tokenBucket (s.sameAt_reset hne)
  | leakyBucket s => exact .leakyBucket (s.sameAt_reset hne) rfl
  | fixedWindow s => exact .fixedWindow (s.sameAt_reset hne)
  | slidingWindow s => exact .slidingWindow (s.sameAt_reset hne)

theorem SameAt.refl (l : Limiter) : SameAt key l l := by
  cases l with
  | tokenBucket s => exact .tokenBucket ⟨rfl, rfl, rfl, rfl⟩
  | leakyBucket s => exact .leakyBucket ⟨rfl, rfl, rfl⟩ rfl
  | fixedWindow s => exact .fixedWindow ⟨rfl, rfl, rfl⟩
  | slidingWindow s => exact .slidingWindow ⟨rfl, rfl, rfl⟩

theorem SameAt.trans {l'' : Limiter} (h : SameAt key l l') (h' : SameAt key l' l'') :
    SameAt key l l'' := by
  cases h with
  | tokenBucket h =>
    cases h' with
    | tokenBucket h' => exact .tokenBucket (h.trans h')
  | leakyBucket h hrate =>
    cases h' with
    | leakyBucket h' hrate' => exact .leakyBucket (h.trans h') (hrate.trans hrate')
  | fixedWindow h =>
    cases h' with
    | fixedWindow h' => exact .fixedWindow (h.trans h')
  | slidingWindow h =>
    cases h' with
    | slidingWindow h' => exact .slidingWindow (h.trans h')

end Limiter

/-! ## Two limiters -/

/-- Limiters made with the same options that have the same for one key. -/
structure SameAt (key : String) (r r' : RateLimiter) : Prop where
  windowMs : r.windowMs = r'.windowMs
  maxRequests : r.maxRequests = r'.maxRequests
  strategy : r.strategy = r'.strategy
  burstable : r.burstable = r'.burstable
  limiter : Limiter.SameAt key r.limiter r'.limiter
  blocked : r.blocked.get? key = r'.blocked.get? key

variable {r r' : RateLimiter} {key other : String}

theorem SameAt.refl (r : RateLimiter) : SameAt key r r := ⟨rfl, rfl, rfl, rfl, .refl _, rfl⟩

theorem SameAt.trans {r'' : RateLimiter} (h : SameAt key r r') (h' : SameAt key r' r'') :
    SameAt key r r'' :=
  ⟨h.windowMs.trans h'.windowMs, h.maxRequests.trans h'.maxRequests,
    h.strategy.trans h'.strategy, h.burstable.trans h'.burstable, h.limiter.trans h'.limiter,
    h.blocked.trans h'.blocked⟩

/-- Another limiter, with other blocked keys. -/
theorem SameAt.with (h : SameAt key r r') {l l' : Limiter} (hlimiter : l.SameAt key l')
    {blocked blocked' : OrderedMap String ℚ} (hblocked : blocked.get? key = blocked'.get? key) :
    SameAt key { r with limiter := l, blocked } { r' with limiter := l', blocked := blocked' } :=
  ⟨h.windowMs, h.maxRequests, h.strategy, h.burstable, hlimiter, hblocked⟩

theorem SameAt.eq_with (h : SameAt key r r') : ∃ l blocked, r.limiter.SameAt key l ∧
    r.blocked.get? key = blocked.get? key ∧ r' = { r with limiter := l, blocked } := by
  obtain ⟨windowMs, maxRequests, strategy, burstable, l, blocked⟩ := r
  obtain ⟨hwindowMs, hmax, hstrategy, hburstable, hlimiter, hblocked⟩ := h
  dsimp only at hwindowMs hmax hstrategy hburstable
  subst hwindowMs hmax hstrategy hburstable
  exact ⟨r'.limiter, r'.blocked, hlimiter, hblocked, rfl⟩

theorem erase_sameAt (blocked blocked' : OrderedMap String ℚ) (key : String) :
    (blocked.erase key).get? key = (blocked'.erase key).get? key := by
  rw [OrderedMap.get?_erase_self, OrderedMap.get?_erase_self]

theorem SameAt.checkRateLimit (h : SameAt key r r') (cost now : ℚ) :
    (r.checkRateLimit key cost now).1 = (r'.checkRateLimit key cost now).1 ∧
      SameAt key (r.checkRateLimit key cost now).2 (r'.checkRateLimit key cost now).2 := by
  obtain ⟨hverdict, hlimiter⟩ := h.limiter.check cost now
  obtain ⟨l, blocked, hsame, hblocked, rfl⟩ := h.eq_with
  unfold RateLimiter.checkRateLimit
  dsimp only
  rw [← hsame.capacity, ← hblocked]
  split
  · exact ⟨rfl, h⟩
  · split
    · exact ⟨congrArg Except.ok hverdict, h.with hlimiter h.blocked⟩
    · split
      · exact ⟨congrArg Except.ok hverdict, h.with hlimiter (erase_sameAt _ _ key)⟩
      · exact ⟨rfl, h⟩

theorem sameAt_checkRateLimit (r : RateLimiter) (hne : key ≠ other) (cost now : ℚ) :
    SameAt key (r.checkRateLimit other cost now).2 r := by
  have hlimiter := r.limiter.sameAt_check hne cost now
  unfold RateLimiter.checkRateLimit
  split
  · exact .refl r
  · split
    · exact (SameAt.refl r).with hlimiter rfl
    · split
      · refine (SameAt.refl r).with hlimiter ?_
        rw [OrderedMap.get?_erase, if_neg hne]
      · exact .refl r

/-! ## Runs -/

/-- What a caller is told. -/
inductive Answer where
  | verdict (verdict : Except RateLimitError Verdict)
  | status (status : Status)
  | tokens (tokens : ℚ)

/-- The key an operation is about; the sweep is about all of them. -/
def Operation.key? : Operation → Option String
  | .checkRateLimit key _ | .blockKey key _ | .reset key | .getStatus key
  | .getRemainingTokens key => some key
  | .cleanup => none

/-- What a call is told. -/
def told (r : RateLimiter) (call : Call) : Option Answer :=
  match call.operation with
  | .checkRateLimit key cost => some (.verdict (r.checkRateLimit key cost call.now).1)
  | .getStatus key => some (.status (r.getStatus key call.now).1)
  | .getRemainingTokens key => some (.tokens (r.getRemainingTokens key call.now).1)
  | .blockKey _ _ | .reset _ | .cleanup => none

/-- The step of a call, with what is told about one key. -/
def hear (key : String) (r : RateLimiter) (call : Call) : RateLimiter × Option Answer :=
  ((r.step call).1, if call.operation.key? = some key then r.told call else none)

/-- The call is about another key. -/
def Call.Foreign (key : String) (call : Call) : Prop :=
  (call.operation.key?.any fun other => other ≠ key) = true

instance (key : String) : DecidablePred (Call.Foreign key) := fun call =>
  inferInstanceAs (Decidable ((call.operation.key?.any fun other => other ≠ key) = true))

theorem Call.Foreign.exists {call : Call} (h : call.Foreign key) :
    ∃ other, call.operation.key? = some other ∧ key ≠ other := by
  obtain ⟨other, hother, hne⟩ := (Option.any_eq_true _ _).mp h
  exact ⟨other, hother, Ne.symm (of_decide_eq_true hne)⟩

/-- A call about another key is not seen. -/
theorem sameAt_step (r : RateLimiter) {call : Call} (h : call.Foreign key) :
    SameAt key (r.step call).1 r := by
  obtain ⟨other, hother, hne⟩ := h.exists
  obtain ⟨now, operation⟩ := call
  cases operation with
  | checkRateLimit k cost =>
    cases hother
    exact sameAt_checkRateLimit r hne cost now
  | blockKey k duration =>
    cases hother
    refine (SameAt.refl r).with (.refl _) ?_
    rw [OrderedMap.get?_set, if_neg hne]
  | reset k =>
    cases hother
    refine (SameAt.refl r).with (r.limiter.sameAt_reset hne) ?_
    rw [OrderedMap.get?_erase, if_neg hne]
  | getStatus k =>
    cases hother
    exact (SameAt.refl r).with (r.limiter.sameAt_remaining hne now) rfl
  | getRemainingTokens k =>
    cases hother
    exact (SameAt.refl r).with (r.limiter.sameAt_remaining hne now) rfl
  | cleanup => cases hother

/-- A call about the key, or a sweep, does the same to both. -/
theorem SameAt.hear (h : SameAt key r r') {call : Call} (hforeign : ¬ call.Foreign key) :
    (r.hear key call).2 = (r'.hear key call).2 ∧
      SameAt key (r.hear key call).1 (r'.hear key call).1 := by
  obtain ⟨now, operation⟩ := call
  have hkey : ∀ k, operation.key? = some k → k = key := by
    intro k hk
    by_contra hne
    refine hforeign ?_
    rw [Call.Foreign, hk]
    exact decide_eq_true hne
  cases operation with
  | checkRateLimit k cost =>
    obtain rfl := hkey k rfl
    obtain ⟨hverdict, hsame⟩ := h.checkRateLimit cost now
    exact ⟨congrArg (fun verdict => if some k = some k then some (Answer.verdict verdict) else none)
      hverdict, hsame⟩
  | blockKey k duration =>
    obtain rfl := hkey k rfl
    refine ⟨rfl, h.with h.limiter ?_⟩
    rw [OrderedMap.get?_set_self, OrderedMap.get?_set_self, h.windowMs]
  | reset k =>
    obtain rfl := hkey k rfl
    exact ⟨rfl, h.with h.limiter.reset (erase_sameAt _ _ k)⟩
  | getStatus k =>
    obtain rfl := hkey k rfl
    obtain ⟨htokens, hsame⟩ := h.limiter.remaining now
    refine ⟨?_, h.with hsame h.blocked⟩
    unfold RateLimiter.hear told RateLimiter.getStatus
    dsimp only
    rw [htokens, h.blocked, h.windowMs, h.maxRequests, h.strategy, h.burstable]
  | getRemainingTokens k =>
    obtain rfl := hkey k rfl
    obtain ⟨htokens, hsame⟩ := h.limiter.remaining now
    exact ⟨congrArg (fun tokens => if some k = some k then some (Answer.tokens tokens) else none)
      htokens, h.with hsame h.blocked⟩
  | cleanup =>
    refine ⟨rfl, h.with (h.limiter.cleanup now) ?_⟩
    exact OrderedMap.get?_filter_congr h.blocked _

/-- What is told about a key does not depend on the calls about other keys. -/
theorem keys_isolated (key : String) (r : RateLimiter) (calls : List Call) :
    answers (hear key) r calls =
      answers (hear key) r (calls.filter fun call => ¬ call.Foreign key) := by
  have hboth : ∀ {t : Unit} {s s' : RateLimiter} {call : Call}, SameAt key s s' → t ≤ () → True →
      ¬ call.Foreign key → (s.hear key call).2 = (s'.hear key call).2 ∧
        SameAt key (s.hear key call).1 (s'.hear key call).1 := by
    intro _ s s' call hsame _ _ hforeign
    exact hsame.hear hforeign
  have hsilent : ∀ {t : Unit} {s s' : RateLimiter} {call : Call}, SameAt key s s' → t ≤ () →
      call.Foreign key → (s.hear key call).2 = none ∧ SameAt key (s.hear key call).1 s' := by
    intro _ s s' call hsame _ hforeign
    obtain ⟨other, hother, hne⟩ := hforeign.exists
    refine ⟨?_, (sameAt_step s hforeign).trans hsame⟩
    rw [hear, if_neg (fun h => hne (Option.some.inj (h.symm.trans hother)))]
  exact @answers_filter _ _ _ Unit _ (hear key) (fun _ => ()) (Call.Foreign key) (fun _ => True) _
    (fun _ => SameAt key) hboth hsilent () r r (.refl r) calls (fun _ _ => le_refl ())
    (List.pairwise_of_forall fun _ _ => le_refl ()) fun _ _ => trivial

end RateLimiter
end RabbitMQ

import RabbitMQ.Resilience.RateLimiter.Doubles.Exactness

/-! `getStatus` agrees with `checkRateLimit` as long as rounding does not come between them: a window
compares a sum with its limit where it admits, and reports a difference. A token bucket reports the
balance that it compares, and needs no more than that it is a number. -/

namespace RabbitMQ
namespace Doubles

variable {key : String} {cost now x y z : Number} {n : ℤ}

/-! ## Strategies -/

namespace TokenBucketStrategy

theorem bucket_fresh {s : TokenBucketStrategy} {q : ℚ} {tokens : Number}
    (hget : s.buckets.get? key = some ⟨tokens, .finite q⟩) :
    s.bucket key (.finite q) = (⟨tokens, .finite q⟩, s) := by
  have hzero : Binary64.IsDouble (q - q) := by
    rw [sub_self]
    exact Binary64.isDouble_zero
  have hnone : (Number.finite 0).lt ((Number.finite (q - q)).mul s.refillRatePerMs) = false := by
    rw [sub_self]
    cases s.refillRatePerMs with
    | nan => rfl
    | negInf | posInf => simp [Number.mul, Number.sign, Number.infinity, Number.lt]
    | finite r =>
      rw [Number.mul_finite (by rw [zero_mul]; exact Binary64.isDouble_zero), zero_mul,
        Number.lt_finite]
      exact decide_eq_false (lt_irrefl 0)
  rw [bucket, hget]
  dsimp only
  rw [Number.sub_finite hzero, hnone]
  rfl

/-- A bucket is brought up to date, or left as it is. -/
theorem bucket_cases (s : TokenBucketStrategy) (key : String) (now : Number) :
    ((s.bucket key now).2 = s ∧ s.buckets.get? key = some (s.bucket key now).1) ∨
      ∃ tokens, s.bucket key now =
        (⟨tokens, now⟩, { s with buckets := s.buckets.set key ⟨tokens, now⟩ }) := by
  rw [bucket]
  split
  · exact .inr ⟨_, rfl⟩
  · next b hget =>
    dsimp only
    split
    · exact .inr ⟨_, rfl⟩
    · exact .inl ⟨rfl, hget⟩

/-- A bucket that was just brought up to date stays as it is. -/
theorem bucket_again (s : TokenBucketStrategy) (key : String) (q : ℚ) :
    (s.bucket key (.finite q)).2.bucket key (.finite q) = s.bucket key (.finite q) := by
  rcases s.bucket_cases key (.finite q) with ⟨hsame, -⟩ | ⟨tokens, heq⟩
  · rw [hsame]
  · rw [heq]
    exact bucket_fresh (OrderedMap.get?_set_self ..)

@[simp] theorem bucket_size (s : TokenBucketStrategy) (key : String) (now : Number) :
    (s.bucket key now).2.bucketSize = s.bucketSize := by
  rcases s.bucket_cases key now with ⟨hsame, -⟩ | ⟨tokens, heq⟩
  · rw [hsame]
  · rw [heq]

theorem check_fst (s : TokenBucketStrategy) (key : String) (cost now : Number) :
    (s.check key cost now).1 = !(s.bucket key now).1.tokens.lt cost := by
  rw [check]
  dsimp only
  split
  · next hless => rw [hless, Bool.not_true]
  · next hfits => rw [Bool.eq_false_iff.mpr hfits, Bool.not_false]

end TokenBucketStrategy

/-- A balance that is a number holds a whole cost when what is reported of it does. -/
theorem floor_holds (h : x ≠ .nan) : x.lt (.finite n) = false ↔ (Number.finite n).le x.floor := by
  cases x with
  | nan => exact absurd rfl h
  | negInf | posInf => simp [Number.lt, Number.le, Number.floor, Number.eq]
  | finite q =>
    rw [Number.lt_finite, Number.floor_finite, Number.le_finite, decide_eq_false_iff_not,
      decide_eq_true_iff, not_lt, Int.cast_le, Int.le_floor]

/-- Where neither is rounded, a sum fits its limit when the difference does. -/
theorem sum_fits (hsum : x.SumExact y) (hdiff : z.DiffExact x) :
    z.lt (x.add y) = false ↔ y.le (z.sub x) := by
  cases x with
  | finite a =>
    cases y with
    | finite b =>
      cases z with
      | finite c =>
        rw [Number.add_finite hsum, Number.sub_finite hdiff, Number.lt_finite, Number.le_finite,
          decide_eq_false_iff_not, decide_eq_true_iff, not_lt, le_sub_iff_add_le']
      | nan | negInf | posInf => cases hdiff
    | nan | negInf | posInf => cases hsum
  | nan | negInf | posInf => cases hsum

theorem sub_zero_eq (h : x.DiffExact (.finite 0)) : x.sub (.finite 0) = x := by
  cases x with
  | finite a => rw [Number.sub_finite h, sub_zero]
  | nan | negInf | posInf => cases h

namespace FixedWindowStrategy

theorem check_fst (s : FixedWindowStrategy) (key : String) (cost now : Number) :
    (s.check key cost now).1 = !s.maxRequests.lt ((s.counterFor key now).count.add cost) := by
  rw [check_eq]
  split
  · next hover => rw [hover, Bool.not_true]
  · next hfits => rw [Bool.eq_false_iff.mpr hfits, Bool.not_false]

theorem remaining_eq {s : FixedWindowStrategy}
    (h : s.maxRequests.DiffExact (s.counterFor key now).count) :
    s.remaining key now = s.maxRequests.sub (s.counterFor key now).count := by
  rw [remaining]
  cases hget : s.counters.get? key with
  | none =>
    rw [counterFor_none hget] at h ⊢
    exact (sub_zero_eq h).symm
  | some counter =>
    rw [counterFor_some hget] at h ⊢
    dsimp only
    split
    · rfl
    · next hstale =>
      rw [if_neg hstale] at h
      exact (sub_zero_eq h).symm

end FixedWindowStrategy

namespace WindowLogStrategy

theorem evict_again (windowMs now : Number) (entries : List LogEntry) (total : Number) :
    evict windowMs now (evict windowMs now entries total).entries
      (evict windowMs now entries total).total = evict windowMs now entries total := by
  induction entries generalizing total with
  | nil => rfl
  | cons entry entries ih =>
    by_cases hexpired : windowMs.lt (now.sub entry.timestamp)
    · rw [evict, if_pos hexpired]
      exact ih _
    · rw [evict, if_neg hexpired, evict, if_neg hexpired]

variable {s : WindowLogStrategy}

theorem occupy_isSome (s : WindowLogStrategy) (key : String) (cost now : Number) :
    (s.occupy key cost now).1.isSome =
      !s.limit.lt ((s.evictExpired (s.windowFor key) now).total.add cost) := by
  rw [occupy]
  split
  · next hover => rw [hover]; rfl
  · next hfits => rw [Bool.eq_false_iff.mpr hfits]; rfl

theorem remaining_eq (h : s.limit.DiffExact (s.evictExpired (s.windowFor key) now).total) :
    (s.remaining key now).1 = s.limit.sub (s.evictExpired (s.windowFor key) now).total := by
  rw [windowFor] at h ⊢
  cases hget : s.windows.get? key with
  | none =>
    rw [hget] at h
    have hlimit : s.limit.DiffExact (.finite 0) := h
    rw [remaining, hget]
    exact (sub_zero_eq hlimit).symm
  | some windowData =>
    rw [remaining, hget]
    rfl

@[simp] theorem remaining_limit (s : WindowLogStrategy) (key : String) (now : Number) :
    (s.remaining key now).2.limit = s.limit := by
  rw [remaining]
  split <;> rfl

/-- A read evicts what the next operation at that instant would. -/
theorem evicted_remaining (s : WindowLogStrategy) (key : String) (now : Number) :
    (s.remaining key now).2.evictExpired ((s.remaining key now).2.windowFor key) now =
      s.evictExpired (s.windowFor key) now := by
  cases hget : s.windows.get? key with
  | none =>
    have hsame : (s.remaining key now).2 = s := by rw [remaining, hget]
    rw [hsame]
  | some windowData =>
    have hread : (s.remaining key now).2 =
        { s with windows := s.windows.set key (s.evictExpired windowData now) } := by
      rw [remaining, hget]
    rw [hread, windowFor, windowFor, OrderedMap.get?_set_self, hget]
    exact evict_again _ _ _ _

end WindowLogStrategy

theorem LeakyBucketStrategy.check_fst (s : LeakyBucketStrategy) (key : String) (cost now : Number) :
    (s.check key cost now).1 = (s.occupy key cost now).1.isSome := by
  rw [check]
  obtain ⟨occupancyBefore, log⟩ := s.occupy key cost now
  cases occupancyBefore with
  | none => rfl
  | some occupancyBefore => rfl

/-! ## Limiters -/

namespace Limiter

/-- Rounding does not come between what a key has left and what a check of it admits: a balance is a
number, and so are the sum and the difference of a window, which need no rounding. -/
def Readable (limiter : Limiter) (key : String) (cost now : Number) : Prop :=
  match limiter with
  | .tokenBucket s => (s.bucket key now).1.tokens ≠ .nan
  | .leakyBucket s => (s.evictExpired (s.windowFor key) now).total.SumExact cost ∧
      s.limit.DiffExact (s.evictExpired (s.windowFor key) now).total
  | .fixedWindow s => (s.counterFor key now).count.SumExact cost ∧
      s.maxRequests.DiffExact (s.counterFor key now).count
  | .slidingWindow s => (s.evictExpired (s.windowFor key) now).total.SumExact cost ∧
      s.limit.DiffExact (s.evictExpired (s.windowFor key) now).total

instance (limiter : Limiter) (key : String) (cost now : Number) :
    Decidable (limiter.Readable key cost now) :=
  match limiter with
  | .tokenBucket _ => inferInstanceAs (Decidable (¬ _ = Number.nan))
  | .leakyBucket _ | .fixedWindow _ | .slidingWindow _ =>
    inferInstanceAs (Decidable (Number.SumExact _ _ ∧ Number.DiffExact _ _))

/-- A strategy grants a whole cost when a read leaves that much. -/
theorem allowed_iff {limiter : Limiter} (h : limiter.Readable key (.finite n) now) :
    (limiter.check key (.finite n) now).1 = true ↔
      (Number.finite n).le (limiter.remaining key now).1 := by
  cases limiter with
  | tokenBucket s =>
    have hallowed : ((tokenBucket s).check key (.finite n) now).1 = (s.check key (.finite n) now).1 :=
      rfl
    rw [hallowed, s.check_fst, Bool.not_eq_true']
    exact floor_holds h
  | leakyBucket s =>
    have hallowed : ((leakyBucket s).check key (.finite n) now).1 =
        (s.occupy key (.finite n) now).1.isSome := s.check_fst key _ now
    rw [hallowed, s.occupy_isSome, Bool.not_eq_true', sum_fits h.1 h.2,
      ← WindowLogStrategy.remaining_eq h.2]
    rfl
  | fixedWindow s =>
    have hallowed : ((fixedWindow s).check key (.finite n) now).1 = (s.check key (.finite n) now).1 :=
      rfl
    rw [hallowed, s.check_fst, Bool.not_eq_true', sum_fits h.1 h.2,
      ← FixedWindowStrategy.remaining_eq h.2]
    rfl
  | slidingWindow s =>
    have hallowed : ((slidingWindow s).check key (.finite n) now).1 =
        (s.occupy key (.finite n) now).1.isSome := rfl
    rw [hallowed, s.occupy_isSome, Bool.not_eq_true', sum_fits h.1 h.2,
      ← WindowLogStrategy.remaining_eq h.2]
    rfl

/-- A read leaves a key as readable as it was. -/
theorem Readable.remaining {limiter : Limiter} {q : ℚ} (h : limiter.Readable key cost (.finite q)) :
    (limiter.remaining key (.finite q)).2.Readable key cost (.finite q) := by
  cases limiter with
  | tokenBucket s =>
    have hsame := congrArg (·.1.tokens) (s.bucket_again key q)
    exact fun hnan => h (hsame.symm.trans hnan)
  | leakyBucket s | slidingWindow s =>
    have hlog : ∀ log : WindowLogStrategy,
        (log.evictExpired (log.windowFor key) (.finite q)).total.SumExact cost ∧
          log.limit.DiffExact (log.evictExpired (log.windowFor key) (.finite q)).total →
        ((log.remaining key (.finite q)).2.evictExpired
          ((log.remaining key (.finite q)).2.windowFor key) (.finite q)).total.SumExact cost ∧
        (log.remaining key (.finite q)).2.limit.DiffExact
          ((log.remaining key (.finite q)).2.evictExpired
            ((log.remaining key (.finite q)).2.windowFor key) (.finite q)).total := by
      intro log h
      rw [log.evicted_remaining, log.remaining_limit]
      exact h
    exact hlog _ h
  | fixedWindow s => exact h

theorem remaining_again {limiter : Limiter} {q : ℚ} (h : limiter.Readable key cost (.finite q)) :
    ((limiter.remaining key (.finite q)).2.remaining key (.finite q)).1 =
      (limiter.remaining key (.finite q)).1 := by
  have hagain := h.remaining
  cases limiter with
  | tokenBucket s => exact congrArg (·.1.tokens.floor) (s.bucket_again key q)
  | leakyBucket s | slidingWindow s =>
    have hlog : ∀ log : WindowLogStrategy,
        log.limit.DiffExact (log.evictExpired (log.windowFor key) (.finite q)).total →
        ((log.remaining key (.finite q)).2.remaining key (.finite q)).1 =
          (log.remaining key (.finite q)).1 := by
      intro log h
      have h' : (log.remaining key (.finite q)).2.limit.DiffExact
          ((log.remaining key (.finite q)).2.evictExpired
            ((log.remaining key (.finite q)).2.windowFor key) (.finite q)).total := by
        rwa [log.evicted_remaining, log.remaining_limit]
      rw [WindowLogStrategy.remaining_eq h', log.remaining_limit, log.evicted_remaining,
        WindowLogStrategy.remaining_eq h]
    exact hlog _ h.2
  | fixedWindow s => rfl

theorem capacity_remaining (limiter : Limiter) (key : String) (now : Number) :
    (limiter.remaining key now).2.capacity = limiter.capacity := by
  cases limiter with
  | tokenBucket s => exact s.bucket_size key now
  | leakyBucket s => exact s.toWindowLogStrategy.remaining_limit key now
  | fixedWindow s => rfl
  | slidingWindow s => exact s.remaining_limit key now

end Limiter

/-! ## Rate limiters -/

/-- A check is granted. -/
def Granted (answer : Answer) : Prop := ∃ wait, answer = .resolved true wait

namespace RateLimiter

/-- The key is not blocked until an instant that is not a number, and can be read. -/
structure Readable (r : RateLimiter) (key : String) (cost now : Number) : Prop where
  blocked : r.blocked.get? key ≠ some .nan
  limiter : r.limiter.Readable key cost now

/-- A check that can be satisfied is granted unless its key is blocked or the strategy refuses. -/
theorem granted_iff {r : RateLimiter} {q : ℚ} (hblocked : r.blocked.get? key ≠ some .nan)
    (hfits : r.limiter.capacity.lt cost = false) :
    Granted (r.checkRateLimit key cost (.finite q)).1 ↔
      (r.getStatus key (.finite q)).1.isBlocked = false ∧
        (r.limiter.check key cost (.finite q)).1 = true := by
  have hstrategy : Granted (.resolved (r.limiter.check key cost (.finite q)).1
      (r.limiter.check key cost (.finite q)).2.1) ↔
        (r.limiter.check key cost (.finite q)).1 = true := by
    constructor
    · rintro ⟨wait, heq⟩
      cases heq' : (r.limiter.check key cost (.finite q)).1 with
      | true => rfl
      | false =>
        rw [heq'] at heq
        cases heq
    · intro hallowed
      exact ⟨_, congrArg (Answer.resolved · _) hallowed⟩
  rw [checkRateLimit, hfits, if_neg Bool.false_ne_true, getStatus]
  cases hget : r.blocked.get? key with
  | none => exact hstrategy.trans (by simp)
  | some blockedUntil =>
    have hover : blockedUntil.le (.finite q) = !(Number.finite q).lt blockedUntil := by
      cases blockedUntil with
      | nan => exact absurd hget hblocked
      | negInf | posInf => simp [Number.le, Number.lt, Number.eq]
      | finite b =>
        rw [Number.le_finite, Number.lt_finite, ← decide_not]
        exact decide_eq_decide.mpr not_lt.symm
    dsimp only
    rw [hover]
    cases (Number.finite q).lt blockedUntil with
    | false => exact hstrategy.trans (by simp)
    | true =>
      refine iff_of_false ?_ ?_
      · rintro ⟨wait, heq⟩
        cases heq
      · rintro ⟨h, -⟩
        cases h

/-- A check of a whole cost is granted exactly when the status at that instant, read before it or
not, reports a free key with tokens enough, as long as rounding does not come between them. -/
theorem granted_iff_status {r : RateLimiter} {q : ℚ}
    (hfits : r.limiter.capacity.lt (.finite n) = false)
    (h : r.Readable key (.finite n) (.finite q)) :
    (Granted (r.checkRateLimit key (.finite n) (.finite q)).1 ↔
      (r.getStatus key (.finite q)).1.isBlocked = false ∧
        (Number.finite n).le (r.getStatus key (.finite q)).1.remainingTokens) ∧
    (Granted ((r.getStatus key (.finite q)).2.checkRateLimit key (.finite n) (.finite q)).1 ↔
      (r.getStatus key (.finite q)).1.isBlocked = false ∧
        (Number.finite n).le (r.getStatus key (.finite q)).1.remainingTokens) := by
  have hstatus : ∀ {r : RateLimiter}, r.limiter.capacity.lt (.finite n) = false →
      r.Readable key (.finite n) (.finite q) →
      (Granted (r.checkRateLimit key (.finite n) (.finite q)).1 ↔
        (r.getStatus key (.finite q)).1.isBlocked = false ∧
          (Number.finite n).le (r.getStatus key (.finite q)).1.remainingTokens) := by
    intro r hfits h
    rw [granted_iff h.blocked hfits, Limiter.allowed_iff h.limiter]
    rfl
  refine ⟨hstatus hfits h, ?_⟩
  have hagain : (r.getStatus key (.finite q)).2.Readable key (.finite n) (.finite q) :=
    ⟨h.blocked, h.limiter.remaining⟩
  have hcapacity : (r.getStatus key (.finite q)).2.limiter.capacity.lt (.finite n) = false := by
    rw [show (r.getStatus key (.finite q)).2.limiter.capacity = r.limiter.capacity from
      r.limiter.capacity_remaining key (.finite q)]
    exact hfits
  refine (hstatus hcapacity hagain).trans ?_
  have htokens : ((r.getStatus key (.finite q)).2.getStatus key (.finite q)).1.remainingTokens =
      (r.getStatus key (.finite q)).1.remainingTokens := Limiter.remaining_again h.limiter
  rw [htokens]
  rfl

/-- Half a unit is gone: the balance is 99.5, the status reports 99, and a check of 100 is refused. -/
theorem refused_after_half : ∃ r, new {} = .ok r ∧
    ¬ Granted ((r.checkRateLimit "" (.finite (1 / 2)) (.finite 0)).2.checkRateLimit ""
      (.finite (100 : ℤ)) (.finite 0)).1 := by
  refine ⟨_, rfl, fun hgranted => ?_⟩
  have hstatus := (granted_iff_status (by decide +kernel)
    ⟨by decide +kernel, by decide +kernel⟩).1.mp hgranted
  revert hstatus
  decide +kernel

/-- A log whose entries of 0.2 and 0.6 have expired keeps a total that is less than it reports, and
than it can add: a status of less than 1, and a check of 1 that is granted. -/
theorem granted_above_status :
    let options : Options := {
      maxRequests := some (.finite 1)
      windowMs := some (.finite 100)
      strategy := some "sliding-window" }
    ∃ r₀, new options = .ok r₀ ∧
      let r := r₀.run [⟨0, .checkRateLimit "" (.of (2 / 10))⟩, ⟨1, .checkRateLimit "" (.of (6 / 10))⟩]
      (r.checkRateLimit "" (.finite 1) (.finite 102)).1 = .resolved true (.finite 0) ∧
      (r.getStatus "" (.finite 102)).1.isBlocked = false ∧
      (r.getStatus "" (.finite 102)).1.remainingTokens = .finite (1 - 1 / 2 ^ 53) := by
  exact ⟨_, rfl, by decide +kernel⟩

end RateLimiter
end Doubles
end RabbitMQ

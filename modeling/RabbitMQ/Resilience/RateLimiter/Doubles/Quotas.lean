import RabbitMQ.Resilience.RateLimiter.Doubles.Statuses

/-! Quotas under any costs: what is left to a key stays between nothing and the capacity in every run
of costs that are neither negative nor not a number. The stores of a token bucket and of a fixed window
stay so however they are rounded; the totals of a window log need to be exact, since a log that has
expired keeps what they are off by. The clock may step in either direction. -/

namespace RabbitMQ
namespace Doubles

open Observation
open Binary64 (IsDouble)

/-- A number of the format from nothing to a bound. -/
def Within (bound : ℚ) (x : Number) : Prop := ∃ q, x = .finite q ∧ IsDouble q ∧ 0 ≤ q ∧ q ≤ bound

variable {key : String} {cost now x y : Number} {bound : ℚ}

theorem within_bound (hdouble : IsDouble bound) (hnonneg : 0 ≤ bound) : Within bound (.finite bound) :=
  ⟨bound, rfl, hdouble, hnonneg, le_rfl⟩

theorem within_zero (hnonneg : 0 ≤ bound) : Within bound (.finite 0) :=
  ⟨0, rfl, Binary64.isDouble_zero, le_rfl, hnonneg⟩

theorem Within.floor (h : Within bound x) : ∃ q, x.floor = .finite q ∧ 0 ≤ q ∧ q ≤ bound := by
  obtain ⟨q, rfl, -, hnonneg, hle⟩ := h
  refine ⟨⌊q⌋, rfl, ?_, (Int.floor_le q).trans hle⟩
  exact_mod_cast Int.floor_nonneg.mpr hnonneg

/-- What is not negative is rounded to a number that is not, or to infinity. -/
theorem of_nonneg {q : ℚ} (hq : 0 ≤ q) :
    Number.of q = .posInf ∨ ∃ r, Number.of q = .finite r ∧ IsDouble r ∧ 0 ≤ r := by
  rw [Number.of]
  split
  · next hfinite =>
    exact .inr ⟨_, rfl, Binary64.isDouble_round hfinite, Binary64.round_nonneg hq⟩
  · next hover =>
    have hpos : 0 < q := by
      refine lt_of_le_of_ne hq fun hzero => hover ?_
      rw [← hzero, Binary64.round_zero, abs_zero]
      positivity
    exact .inl (if_pos hpos)

/-- A refill is capped. -/
theorem Within.refill (h : Within bound x) (hdouble : IsDouble bound)
    (hadd : (Number.finite 0).lt y) : Within bound (.min (.finite bound) (x.add y)) := by
  obtain ⟨q, rfl, -, hnonneg, hle⟩ := h
  have hbound : 0 ≤ bound := hnonneg.trans hle
  have hfull : Number.min (.finite bound) .posInf = .finite bound := by
    simp [Number.min, Number.lt]
  cases y with
  | nan | negInf => cases hadd
  | posInf =>
    rw [show (Number.finite q).add .posInf = .posInf from rfl, hfull]
    exact within_bound hdouble hbound
  | finite a =>
    rw [Number.lt_finite, decide_eq_true_iff] at hadd
    rcases of_nonneg (add_nonneg hnonneg hadd.le) with hinf | ⟨r, hr, hdouble', hnonneg'⟩
    · rw [show (Number.finite q).add (.finite a) = .posInf from hinf, hfull]
      exact within_bound hdouble hbound
    · rw [show (Number.finite q).add (.finite a) = .finite r from hr, Number.min_finite]
      refine ⟨_, rfl, ?_, le_min hbound hnonneg', min_le_left _ _⟩
      rcases min_choice bound r with heq | heq
      · rwa [heq]
      · rwa [heq]

/-- What can be spent leaves no less than nothing. -/
theorem Within.spend (h : Within bound x) (hcost : cost.Nonneg) (hfits : x.lt cost = false) :
    Within bound (x.sub cost) := by
  obtain ⟨q, rfl, hdouble, hnonneg, hle⟩ := h
  cases cost with
  | nan | negInf => cases hcost
  | posInf => cases hfits
  | finite c =>
    have hc := Number.nonneg_finite.mp hcost
    rw [Number.lt_finite, decide_eq_false_iff_not, not_lt] at hfits
    obtain ⟨r, hr, hdouble', hlow, hhigh⟩ :=
      Number.of_between Binary64.isDouble_zero hdouble (sub_nonneg.mpr hfits) (sub_le_self q hc)
    refine ⟨r, ?_, hdouble', hlow, hhigh.trans hle⟩
    rw [Number.sub, Number.neg, Number.add, ← sub_eq_add_neg, hr]

/-- What can be charged stays below the bound. -/
theorem Within.charge (h : Within bound x) (hcost : cost.Nonneg)
    (hfits : (Number.finite bound).lt (x.add cost) = false) : Within bound (x.add cost) := by
  obtain ⟨q, rfl, -, hnonneg, -⟩ := h
  cases cost with
  | nan | negInf => cases hcost
  | posInf => cases hfits
  | finite c =>
    have hc := Number.nonneg_finite.mp hcost
    rcases of_nonneg (add_nonneg hnonneg hc) with hinf | ⟨r, hr, hdouble, hlow⟩
    · rw [show (Number.finite q).add (.finite c) = .posInf from hinf] at hfits
      cases hfits
    · rw [show (Number.finite q).add (.finite c) = .finite r from hr, Number.lt_finite,
        decide_eq_false_iff_not, not_lt] at hfits
      exact ⟨r, hr, hdouble, hlow, hfits⟩

/-- What is left of a bound. -/
theorem Within.rest (h : Within bound x) (hdouble : IsDouble bound) :
    ∃ q, (Number.finite bound).sub x = .finite q ∧ 0 ≤ q ∧ q ≤ bound := by
  obtain ⟨q, rfl, hdouble', hnonneg, hle⟩ := h
  have hfits : (Number.finite bound).lt (.finite q) = false := by
    rw [Number.lt_finite]
    exact decide_eq_false (not_lt.mpr hle)
  obtain ⟨r, hr, -, hlow, hhigh⟩ := (within_bound hdouble (hnonneg.trans hle)).spend
    (Number.nonneg_finite.mpr hnonneg) hfits
  exact ⟨r, hr, hlow, hhigh⟩

/-! ## Token buckets -/

namespace TokenBucketStrategy

/-- No bucket holds less than nothing or more than its size, at whatever rate it refills. -/
structure Capped (bound : ℚ) (s : TokenBucketStrategy) : Prop where
  size : s.bucketSize = .finite bound
  double : IsDouble bound
  nonneg : 0 ≤ bound
  tokens : ∀ key bucket, s.buckets.get? key = some bucket → Within bound bucket.tokens

variable {s : TokenBucketStrategy}

theorem Capped.set (h : Capped bound s) (key : String) {bucket : Bucket}
    (hbucket : Within bound bucket.tokens) :
    Capped bound { s with buckets := s.buckets.set key bucket } where
  size := h.size
  double := h.double
  nonneg := h.nonneg
  tokens := OrderedMap.forall_set h.tokens hbucket

theorem Capped.bucket (h : Capped bound s) (key : String) (now : Number) :
    Capped bound (s.bucket key now).2 ∧ Within bound (s.bucket key now).1.tokens := by
  have hsize := h.size
  rw [TokenBucketStrategy.bucket]
  split
  · have hfull : Within bound s.bucketSize := hsize ▸ within_bound h.double h.nonneg
    exact ⟨h.set key hfull, hfull⟩
  · next b hget =>
    have hb := h.tokens key b hget
    dsimp only
    split
    · next hadd =>
      have hmore := hb.refill h.double hadd
      rw [← hsize] at hmore
      exact ⟨h.set key hmore, hmore⟩
    · exact ⟨h, hb⟩

theorem Capped.check (h : Capped bound s) (key : String) (hcost : cost.Nonneg) (now : Number) :
    Capped bound (s.check key cost now).2 := by
  obtain ⟨hcapped, htokens⟩ := h.bucket key now
  rw [TokenBucketStrategy.check]
  dsimp only
  split
  · exact hcapped
  · next hfits => exact hcapped.set key (htokens.spend hcost (Bool.eq_false_iff.mpr hfits))

theorem Capped.remaining (h : Capped bound s) (key : String) (now : Number) :
    ∃ q, (s.remaining key now).1 = .finite q ∧ 0 ≤ q ∧ q ≤ bound :=
  (h.bucket key now).2.floor

theorem Capped.cleanup (h : Capped bound s) (now : Number) : Capped bound (s.cleanup now) where
  size := h.size
  double := h.double
  nonneg := h.nonneg
  tokens key bucket hget := h.tokens key bucket (OrderedMap.get?_filter.mp hget).1

theorem Capped.reset (h : Capped bound s) (key : String) : Capped bound (s.reset key) where
  size := h.size
  double := h.double
  nonneg := h.nonneg
  tokens := OrderedMap.forall_erase h.tokens key

end TokenBucketStrategy

/-! ## Fixed windows -/

namespace FixedWindowStrategy

/-- No counter counts less than nothing or more than the limit. -/
structure Capped (bound : ℚ) (s : FixedWindowStrategy) : Prop where
  limit : s.maxRequests = .finite bound
  double : IsDouble bound
  nonneg : 0 ≤ bound
  counts : ∀ key counter, s.counters.get? key = some counter → Within bound counter.count

variable {s : FixedWindowStrategy}

theorem Capped.counterFor (h : Capped bound s) (key : String) (now : Number) :
    Within bound (s.counterFor key now).count := by
  cases hget : s.counters.get? key with
  | none =>
    rw [counterFor_none hget]
    exact within_zero h.nonneg
  | some counter =>
    rw [counterFor_some hget]
    split
    · exact h.counts key counter hget
    · exact within_zero h.nonneg

theorem Capped.set (h : Capped bound s) (key : String) {counter : Counter}
    (hcount : Within bound counter.count) :
    Capped bound { s with counters := s.counters.set key counter } where
  limit := h.limit
  double := h.double
  nonneg := h.nonneg
  counts := OrderedMap.forall_set h.counts hcount

theorem Capped.check (h : Capped bound s) (key : String) (hcost : cost.Nonneg) (now : Number) :
    Capped bound (s.check key cost now).2 := by
  have hcount := h.counterFor key now
  rw [check_eq]
  split
  · dsimp only
    split
    · exact h.set key hcount
    · exact h
  · next hfits =>
    rw [h.limit] at hfits
    exact h.set key (hcount.charge hcost (Bool.eq_false_iff.mpr hfits))

theorem Capped.remaining (h : Capped bound s) (key : String) (now : Number) :
    ∃ q, s.remaining key now = .finite q ∧ 0 ≤ q ∧ q ≤ bound := by
  rw [FixedWindowStrategy.remaining, h.limit]
  split
  · exact ⟨bound, rfl, h.nonneg, le_rfl⟩
  · next counter hget =>
    split
    · exact (h.counts key counter hget).rest h.double
    · exact ⟨bound, rfl, h.nonneg, le_rfl⟩

theorem Capped.cleanup (h : Capped bound s) (now : Number) : Capped bound (s.cleanup now) where
  limit := h.limit
  double := h.double
  nonneg := h.nonneg
  counts key counter hget := h.counts key counter (OrderedMap.get?_filter.mp hget).1

theorem Capped.reset (h : Capped bound s) (key : String) : Capped bound (s.reset key) where
  limit := h.limit
  double := h.double
  nonneg := h.nonneg
  counts := OrderedMap.forall_erase h.counts key

end FixedWindowStrategy

/-! ## Window logs -/

namespace WindowLogStrategy

/-- The costs of the entries are not negative, and this is their sum. -/
def Costs : List LogEntry → ℚ → Prop
  | [], sum => sum = 0
  | entry :: entries, sum => ∃ c, entry.cost = .finite c ∧ 0 ≤ c ∧ Costs entries (sum - c)

theorem Costs.nonneg {entries : List LogEntry} {sum : ℚ} (h : Costs entries sum) : 0 ≤ sum := by
  induction entries generalizing sum with
  | nil => exact h.ge
  | cons entry entries ih =>
    obtain ⟨c, -, hc, hrest⟩ := h
    have hsum := ih hrest
    linarith

theorem Costs.concat {entries : List LogEntry} {sum c : ℚ} (h : Costs entries sum) (hc : 0 ≤ c) :
    Costs (entries ++ [⟨now, .finite c⟩]) (sum + c) := by
  induction entries generalizing sum with
  | nil =>
    refine ⟨c, rfl, hc, ?_⟩
    rw [show sum = 0 from h, zero_add, sub_self]
    rfl
  | cons entry entries ih =>
    obtain ⟨c', heq, hc', hrest⟩ := h
    refine ⟨c', heq, hc', ?_⟩
    rw [add_sub_right_comm]
    exact ih hrest

/-- The running total is the sum of the entries, and no more than the limit. -/
structure Totalled (bound : ℚ) (windowData : WindowData) : Prop where
  within : Within bound windowData.total
  costs : ∃ sum, windowData.total = .finite sum ∧ Costs windowData.entries sum

theorem totalled_empty (hnonneg : 0 ≤ bound) : Totalled bound ⟨[], .finite 0⟩ :=
  ⟨within_zero hnonneg, 0, rfl, rfl⟩

/-- An eviction that needs no rounding keeps the totals. -/
theorem Totalled.evict {windowMs : Number} {entries : List LogEntry} {total : Number}
    (h : Totalled bound ⟨entries, total⟩) (hexact : EvictExact windowMs now entries total) :
    Totalled bound (evict windowMs now entries total) := by
  induction entries generalizing total with
  | nil => exact h
  | cons entry entries ih =>
    rw [WindowLogStrategy.evict]
    split
    · next hexpired =>
      obtain ⟨hdiff, hrest⟩ := hexact hexpired
      refine ih ?_ hrest
      obtain ⟨sum, htotal, c, hcost, hc, hcosts⟩ := h.costs
      obtain ⟨q, hq, -, -, hle⟩ := h.within
      cases htotal.symm.trans hq
      dsimp only at htotal
      rw [htotal, hcost] at hdiff ⊢
      rw [Number.sub_finite hdiff]
      exact ⟨⟨sum - c, rfl, hdiff, hcosts.nonneg, by linarith⟩, sum - c, rfl, hcosts⟩
    · exact h

/-- No log holds more than the limit. -/
structure Capped (bound : ℚ) (s : WindowLogStrategy) : Prop where
  limit : s.limit = .finite bound
  double : IsDouble bound
  nonneg : 0 ≤ bound
  totals : ∀ key windowData, s.windows.get? key = some windowData → Totalled bound windowData

variable {s : WindowLogStrategy}

theorem Capped.evicted (h : Capped bound s) (hexact : s.TotalExact key now) :
    Totalled bound (s.evictExpired (s.windowFor key) now) := by
  refine Totalled.evict ?_ hexact
  rw [windowFor]
  cases hget : s.windows.get? key with
  | none => exact totalled_empty h.nonneg
  | some windowData => exact h.totals key windowData hget

theorem Capped.set (h : Capped bound s) (key : String) {windowData : WindowData}
    (htotal : Totalled bound windowData) :
    Capped bound { s with windows := s.windows.set key windowData } where
  limit := h.limit
  double := h.double
  nonneg := h.nonneg
  totals := OrderedMap.forall_set h.totals htotal

theorem Capped.reset (h : Capped bound s) (key : String) : Capped bound (s.reset key) where
  limit := h.limit
  double := h.double
  nonneg := h.nonneg
  totals := OrderedMap.forall_erase h.totals key

/-- The totals that an admission computes need no rounding. -/
def AdmitExact (s : WindowLogStrategy) (key : String) (cost now : Number) : Prop :=
  s.TotalExact key now ∧
    (s.limit.lt ((s.evictExpired (s.windowFor key) now).total.add cost) = false →
      (s.evictExpired (s.windowFor key) now).total.SumExact cost)

instance (s : WindowLogStrategy) (key : String) (cost now : Number) :
    Decidable (s.AdmitExact key cost now) := inferInstanceAs (Decidable (_ ∧ (_ → _)))

theorem Capped.occupy (h : Capped bound s) (hcost : cost.Nonneg) (hexact : s.AdmitExact key cost now) :
    Capped bound (s.occupy key cost now).2 := by
  have hevicted := h.evicted hexact.1
  obtain ⟨hlimit, hsum⟩ := And.intro h.limit hexact.2
  rw [WindowLogStrategy.occupy]
  generalize s.evictExpired (s.windowFor key) now = w at hevicted hsum ⊢
  split
  · exact h.set key hevicted
  · next hfits =>
    have hfits := Bool.eq_false_iff.mpr hfits
    have hsum := hsum hfits
    rw [hlimit] at hfits
    refine h.set key ⟨hevicted.within.charge hcost hfits, ?_⟩
    obtain ⟨sum, htotal, hcosts⟩ := hevicted.costs
    rw [htotal] at hsum ⊢
    cases cost with
    | nan | negInf | posInf => cases hsum
    | finite c =>
      rw [Number.add_finite hsum]
      exact ⟨sum + c, rfl, hcosts.concat (Number.nonneg_finite.mp hcost)⟩

theorem Capped.read (h : Capped bound s) (hexact : s.TotalExact key now) :
    Capped bound (s.remaining key now).2 ∧
      ∃ q, (s.remaining key now).1 = .finite q ∧ 0 ≤ q ∧ q ≤ bound := by
  rw [WindowLogStrategy.remaining]
  cases hget : s.windows.get? key with
  | none => exact ⟨h, bound, h.limit, h.nonneg, le_rfl⟩
  | some windowData =>
    have hevicted := h.evicted hexact
    rw [windowFor, hget, Option.getD_some] at hevicted
    refine ⟨h.set key hevicted, ?_⟩
    dsimp only
    rw [h.limit]
    exact hevicted.within.rest h.double

theorem Capped.sweep (h : Capped bound s) (hexact : s.TotalExact key now) :
    Capped bound (sweep now s key) := by
  rw [WindowLogStrategy.sweep]
  cases hget : s.windows.get? key with
  | none => exact h
  | some windowData =>
    have hevicted := h.evicted hexact
    rw [windowFor, hget, Option.getD_some] at hevicted
    dsimp only
    split
    · exact h.reset key
    · exact h.set key hevicted

/-- A turn of the sweep leaves the other keys as exact as they were. -/
theorem sweep_totalExact {key' : String} (hne : key' ≠ key) (h : s.TotalExact key' now) :
    (sweep now s key).TotalExact key' now := by
  have hwindow : (sweep now s key).windowMs = s.windowMs := by
    rw [WindowLogStrategy.sweep]
    split <;> rfl
  have hsame : (sweep now s key).windows.get? key' = s.windows.get? key' := by
    rw [WindowLogStrategy.sweep]
    split
    · rfl
    · dsimp only
      split
      · rw [OrderedMap.get?_erase, if_neg hne]
      · rw [OrderedMap.get?_set, if_neg hne]
  rw [TotalExact, windowFor] at h ⊢
  rwa [hwindow, hsame]

theorem Capped.cleanup (h : Capped bound s) (hexact : ∀ key ∈ s.windows.keys, s.TotalExact key now) :
    Capped bound (s.cleanup now) := by
  have hnodup := s.windows.keys_nodup
  rw [WindowLogStrategy.cleanup]
  generalize s.windows.keys = keys at hexact hnodup
  induction keys generalizing s with
  | nil => exact h
  | cons key keys ih =>
    obtain ⟨hnot, hnodup⟩ := List.nodup_cons.mp hnodup
    refine ih (h.sweep (hexact key List.mem_cons_self)) (fun key' hkey' => ?_) hnodup
    exact sweep_totalExact (ne_of_mem_of_not_mem hkey' hnot)
      (hexact key' (List.mem_cons_of_mem _ hkey'))

end WindowLogStrategy

/-- A leaky bucket checks by its log. -/
theorem LeakyBucketStrategy.check_log (s : LeakyBucketStrategy) (key : String) (cost now : Number) :
    (s.check key cost now).2.2.toWindowLogStrategy = (s.occupy key cost now).2 := by
  rw [check]
  obtain ⟨occupancyBefore, log⟩ := s.occupy key cost now
  cases occupancyBefore with
  | none => rfl
  | some occupancyBefore => rfl

/-! ## Strategies -/

namespace Limiter

def Capped (bound : ℚ) : Limiter → Prop
  | .tokenBucket s => s.Capped bound
  | .leakyBucket s => s.toWindowLogStrategy.Capped bound
  | .fixedWindow s => s.Capped bound
  | .slidingWindow s => s.Capped bound

/-- The log, where the strategy is one. -/
def log? : Limiter → Option WindowLogStrategy
  | .leakyBucket s => some s.toWindowLogStrategy
  | .slidingWindow s => some s
  | .tokenBucket _ | .fixedWindow _ => none

variable {limiter : Limiter}

theorem Capped.check (h : limiter.Capped bound) (hcost : cost.Nonneg)
    (hexact : ∀ s ∈ limiter.log?, s.AdmitExact key cost now) :
    (limiter.check key cost now).2.2.Capped bound := by
  cases limiter with
  | tokenBucket s => exact TokenBucketStrategy.Capped.check h key hcost now
  | leakyBucket s =>
    have hcapped := WindowLogStrategy.Capped.occupy h hcost (hexact s.toWindowLogStrategy rfl)
    rw [← s.check_log] at hcapped
    exact hcapped
  | fixedWindow s => exact FixedWindowStrategy.Capped.check h key hcost now
  | slidingWindow s => exact WindowLogStrategy.Capped.occupy h hcost (hexact s rfl)

theorem Capped.remaining (h : limiter.Capped bound)
    (hexact : ∀ s ∈ limiter.log?, s.TotalExact key now) :
    (limiter.remaining key now).2.Capped bound ∧
      ∃ q, (limiter.remaining key now).1 = .finite q ∧ 0 ≤ q ∧ q ≤ bound := by
  cases limiter with
  | tokenBucket s =>
    exact ⟨(TokenBucketStrategy.Capped.bucket h key now).1,
      TokenBucketStrategy.Capped.remaining h key now⟩
  | leakyBucket s => exact WindowLogStrategy.Capped.read h (hexact s.toWindowLogStrategy rfl)
  | fixedWindow s => exact ⟨h, FixedWindowStrategy.Capped.remaining h key now⟩
  | slidingWindow s => exact WindowLogStrategy.Capped.read h (hexact s rfl)

theorem Capped.cleanup (h : limiter.Capped bound)
    (hexact : ∀ s ∈ limiter.log?, ∀ key ∈ s.windows.keys, s.TotalExact key now) :
    (limiter.cleanup now).Capped bound := by
  cases limiter with
  | tokenBucket s => exact TokenBucketStrategy.Capped.cleanup h now
  | leakyBucket s => exact WindowLogStrategy.Capped.cleanup h (hexact s.toWindowLogStrategy rfl)
  | fixedWindow s => exact FixedWindowStrategy.Capped.cleanup h now
  | slidingWindow s => exact WindowLogStrategy.Capped.cleanup h (hexact s rfl)

theorem Capped.reset (h : limiter.Capped bound) (key : String) :
    (limiter.reset key).Capped bound := by
  cases limiter with
  | tokenBucket s => exact TokenBucketStrategy.Capped.reset h key
  | leakyBucket s => exact WindowLogStrategy.Capped.reset (s := s.toWindowLogStrategy) h key
  | fixedWindow s => exact FixedWindowStrategy.Capped.reset h key
  | slidingWindow s => exact WindowLogStrategy.Capped.reset h key

/-- A new strategy of a capacity that is not negative. -/
theorem capped_new (name : StrategyName) (maxRequests windowMs : Number) (burstable : Bool)
    (burstLimit queueLimit : Number)
    (hcapacity : (new name maxRequests windowMs burstable burstLimit queueLimit).capacity =
      .finite bound) (hdouble : IsDouble bound) (hnonneg : 0 ≤ bound) :
    (new name maxRequests windowMs burstable burstLimit queueLimit).Capped bound := by
  cases name with
  | tokenBucket | leakyBucket | fixedWindow | slidingWindow =>
    refine ⟨hcapacity, hdouble, hnonneg, ?_⟩
    rintro _ _ ⟨⟩

end Limiter

/-! ## Rate limiters -/

namespace RateLimiter

/-- The cost of a check is a number that is not negative, and the totals of a log need no rounding. -/
def Sound (r : RateLimiter) (call : Call) : Prop :=
  match call.operation with
  | .checkRateLimit key cost => cost.Nonneg ∧
      ∀ s ∈ r.limiter.log?, s.AdmitExact key cost (.finite call.now)
  | .getStatus key | .getRemainingTokens key =>
    ∀ s ∈ r.limiter.log?, s.TotalExact key (.finite call.now)
  | .cleanup => ∀ s ∈ r.limiter.log?, ∀ key ∈ s.windows.keys, s.TotalExact key (.finite call.now)
  | .blockKey _ _ | .reset _ => True

instance (r : RateLimiter) (call : Call) : Decidable (r.Sound call) := by
  obtain ⟨now, operation⟩ := call
  cases operation with
  | checkRateLimit key cost =>
    exact inferInstanceAs (Decidable ((Number.finite 0).le cost = true ∧
      ∀ s ∈ r.limiter.log?, s.AdmitExact key cost (.finite now)))
  | getStatus key | getRemainingTokens key =>
    exact inferInstanceAs (Decidable (∀ s ∈ r.limiter.log?, s.TotalExact key (.finite now)))
  | cleanup =>
    exact inferInstanceAs (Decidable (∀ s ∈ r.limiter.log?, ∀ key ∈ s.windows.keys,
      s.TotalExact key (.finite now)))
  | blockKey | reset => exact .isTrue trivial

theorem checkRateLimit_limiter (r : RateLimiter) (key : String) (cost now : Number) :
    (r.checkRateLimit key cost now).2.limiter = r.limiter ∨
      (r.checkRateLimit key cost now).2.limiter = (r.limiter.check key cost now).2.2 := by
  rw [checkRateLimit]
  split
  · exact .inl rfl
  · split
    · exact .inr rfl
    · split
      · exact .inr rfl
      · exact .inl rfl

/-- A call keeps the quotas of the keys. -/
theorem capped_step {r : RateLimiter} {call : Call} (h : r.limiter.Capped bound)
    (hsound : r.Sound call) : (r.step call).1.limiter.Capped bound := by
  obtain ⟨now, operation⟩ := call
  cases operation with
  | checkRateLimit key cost =>
    obtain ⟨hcost, hexact⟩ := hsound
    rcases r.checkRateLimit_limiter key cost (.finite now) with heq | heq
    · exact heq ▸ h
    · exact heq ▸ h.check hcost hexact
  | blockKey key duration => exact h
  | reset key => exact h.reset key
  | getStatus key | getRemainingTokens key => exact (h.remaining hsound).1
  | cleanup => exact h.cleanup hsound

/-- What is left to a key stays between nothing and the capacity in every run of costs that are
neither negative nor not a number, as long as the totals of a log need no rounding. -/
theorem bounded_costs {options : Options} {r₀ : RateLimiter} (hnew : new options = .ok r₀)
    (hcapacity : r₀.limiter.capacity = .finite bound) (hdouble : IsDouble bound)
    (hnonneg : 0 ≤ bound) {calls : List Call} (hcalls : Each step Sound r₀ calls) (key : String)
    (now : ℚ) (hread : ∀ s ∈ (r₀.run calls).limiter.log?, s.TotalExact key (.finite now)) :
    ∃ q, ((r₀.run calls).getRemainingTokens key (.finite now)).1 = .finite q ∧ 0 ≤ q ∧ q ≤ bound := by
  have hstart : r₀.limiter.Capped bound := by
    rw [new] at hnew
    split at hnew
    · cases hnew
    · cases hnew
      exact Limiter.capped_new _ _ _ _ _ _ hcapacity hdouble hnonneg
  have hcapped : (r₀.run calls).limiter.Capped bound :=
    Each.invariant (I := fun r : RateLimiter => r.limiter.Capped bound) capped_step hstart hcalls
  exact (hcapped.remaining hread).2

/-- A sliding window of three requests, with costs of a half. -/
theorem bounded_costs_half :
    let options : Options := { maxRequests := some (.finite 3), strategy := some "sliding-window" }
    let calls : List Call :=
      [⟨0, .checkRateLimit "orders" (.finite (1 / 2))⟩, ⟨1, .cleanup⟩,
        ⟨70000, .checkRateLimit "orders" (.finite (1 / 2))⟩]
    ∃ r₀, new options = .ok r₀ ∧
      ∃ q, ((r₀.run calls).getRemainingTokens "orders" (.finite 70000)).1 = .finite q ∧
        0 ≤ q ∧ q ≤ 3 := by
  intro options calls
  refine ⟨_, rfl, ?_⟩
  exact bounded_costs (show new options = _ from rfl) rfl (by decide +kernel) (by norm_num)
    (by decide +kernel) "orders" 70000 (by decide +kernel)

/-- One check of a negative cost leaves its key more than the limit, and one of a cost that is not a
number leaves it nothing that is a number; and costs of 0.2, 0.5 and 0.1 that have expired leave more
than the limit of a sliding window. -/
theorem costs_corrupt :
    (∃ r₀, new {} = .ok r₀ ∧ r₀.limiter.capacity = .finite 100 ∧
      ((r₀.run [⟨0, .checkRateLimit "orders" (.finite (-5))⟩]).getRemainingTokens "orders"
        (.finite 0)).1 = .finite 105 ∧
      ((r₀.run [⟨0, .checkRateLimit "orders" .nan⟩]).getRemainingTokens "orders"
        (.finite 0)).1 = .nan) ∧
    let options : Options := {
      maxRequests := some (.finite 1)
      windowMs := some (.finite 100)
      strategy := some "sliding-window" }
    let calls : List Call :=
      [⟨0, .checkRateLimit "orders" (.of (2 / 10))⟩, ⟨1, .checkRateLimit "orders" (.of (5 / 10))⟩,
        ⟨2, .checkRateLimit "orders" (.of (1 / 10))⟩]
    ∃ r₀, new options = .ok r₀ ∧ r₀.limiter.capacity = .finite 1 ∧
      ((r₀.run calls).getRemainingTokens "orders" (.finite 103)).1 = .finite (1 + 1 / 2 ^ 52) :=
  ⟨⟨_, rfl, rfl, by decide +kernel, by decide +kernel⟩, _, rfl, rfl, by decide +kernel⟩

end RateLimiter
end Doubles
end RabbitMQ

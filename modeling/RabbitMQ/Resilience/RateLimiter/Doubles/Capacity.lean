import RabbitMQ.Resilience.RateLimiter.Doubles.Quotas

/-! The verdict that a cost can never be satisfied. What is above the capacity is refused at every
instant, and what is not is granted once its key was left alone for long enough: until its bucket is
full again, its window is over, or its log has expired. -/

namespace RabbitMQ
namespace Doubles

open Observation
open Binary64 (IsDouble)

variable {key key' : String} {cost now x y : Number} {bound span deadline q c : ℚ}

/-! ## Numbers -/

/-- It is no less than the bound. -/
def AtLeast (bound : ℚ) (x : Number) : Prop := x = .posInf ∨ ∃ q, x = .finite q ∧ bound ≤ q

theorem atLeast_of (hdouble : IsDouble bound) (hnonneg : 0 ≤ bound) (hle : bound ≤ q) :
    AtLeast bound (.of q) := by
  rcases of_nonneg (hnonneg.trans hle) with hinf | ⟨r, hr, hdouble', -⟩
  · exact .inl hinf
  · refine .inr ⟨r, hr, ?_⟩
    rw [Number.of] at hr
    split at hr
    · cases hr
      exact hdouble.le_round hle
    · split at hr <;> cases hr

theorem AtLeast.lt (h : AtLeast c x) (hlt : bound < c) : (Number.finite bound).lt x = true := by
  rcases h with rfl | ⟨q, rfl, hle⟩
  · rfl
  · exact decide_eq_true (hlt.trans_le hle)

theorem AtLeast.min (h : AtLeast bound x) : (Number.finite bound).min x = .finite bound := by
  rcases h with rfl | ⟨q, rfl, hle⟩
  · simp [Number.min, Number.lt]
  · rw [Number.min_finite, min_eq_left hle]

theorem atLeast_zero (h : (Number.finite 0).lt x) : AtLeast 0 x := by
  cases x with
  | nan | negInf => cases h
  | posInf => exact .inl rfl
  | finite q =>
    rw [Number.lt_finite, decide_eq_true_iff] at h
    exact .inr ⟨q, rfl, h.le⟩

/-- Below a bound, rounding is off by half a unit of its last digit at most. -/
theorem of_below (hdouble : IsDouble bound) (hpos : 0 < q) (hlt : q < bound) :
    ∃ r, Number.of q = .finite r ∧ q ≤ r + 2 ^ Binary64.exponent bound / 2 ∧ 0 ≤ r ∧ r ≤ bound := by
  obtain ⟨r, hr, -, hnonneg, hle⟩ :=
    Number.of_between Binary64.isDouble_zero hdouble hpos.le hlt.le
  refine ⟨r, hr, ?_, hnonneg, hle⟩
  have hround : r = Binary64.round q := by
    rw [Number.of] at hr
    split at hr
    · exact (Number.finite.inj hr).symm
    · cases hr
  have hoff := (abs_le.mp (Binary64.abs_sub_round_le q)).2
  have hunit : (2 : ℚ) ^ Binary64.exponent q ≤ 2 ^ Binary64.exponent bound :=
    zpow_le_zpow_right₀ one_le_two (Binary64.exponent_mono hpos hlt.le)
  rw [zpow_sub_one₀ two_ne_zero] at hoff
  rw [hround]
  linarith

/-- A refill of two units of the last digit of the size is not lost, however it is rounded: the bucket
is full, or it holds half of the refill more. -/
theorem refill_kept {tokens refill : ℚ} (hdouble : IsDouble bound) (hbound : 0 < bound)
    (htokens : 0 ≤ tokens) (hrefill : 2 * 2 ^ Binary64.exponent bound ≤ refill) :
    ∃ x, (Number.finite bound).min ((Number.finite tokens).add (.of refill)) = .finite x ∧
      (x = bound ∨ x < bound ∧ tokens + refill / 2 ≤ x) := by
  have hunit := Binary64.two_zpow_pos (Binary64.exponent bound)
  have hfull : AtLeast bound ((Number.finite tokens).add (.of refill)) → ∃ x,
      (Number.finite bound).min ((Number.finite tokens).add (.of refill)) = .finite x ∧
        (x = bound ∨ x < bound ∧ tokens + refill / 2 ≤ x) :=
    fun hmore => ⟨bound, hmore.min, .inl rfl⟩
  rcases le_or_gt bound refill with hlarge | hsmall
  · refine hfull ?_
    rcases atLeast_of hdouble hbound.le hlarge with hinf | ⟨a, ha, hle⟩
    · rw [hinf]
      exact .inl rfl
    · rw [ha]
      exact atLeast_of hdouble hbound.le (hle.trans (le_add_of_nonneg_left htokens))
  · obtain ⟨a, ha, hclose, hnonneg, -⟩ := of_below hdouble (by linarith) hsmall
    rcases le_or_gt bound (tokens + a) with hmore | hless
    · refine hfull ?_
      rw [ha]
      exact atLeast_of hdouble hbound.le hmore
    · obtain ⟨x, hx, hclose', -, hle⟩ := of_below hdouble (by linarith : 0 < tokens + a) hless
      rw [ha, Number.add, hx, Number.min_finite, min_eq_right hle]
      refine ⟨x, rfl, hle.eq_or_lt.imp id fun hlt => ⟨hlt, ?_⟩⟩
      linarith

/-- What is above a bound stays above it with what is already there. -/
theorem over_of_lt (hx : Within bound x) (hcost : ∀ c, cost = .finite c → IsDouble c)
    (hover : (Number.finite bound).lt cost) : (Number.finite bound).lt (x.add cost) := by
  obtain ⟨q, rfl, -, hnonneg, hle⟩ := hx
  cases cost with
  | nan | negInf => cases hover
  | posInf => rfl
  | finite c =>
    rw [Number.lt_finite, decide_eq_true_iff] at hover
    have hc : 0 ≤ c := (hnonneg.trans hle).trans hover.le
    exact AtLeast.lt (atLeast_of (hcost c rfl) hc (le_add_of_nonneg_left hnonneg)) hover

/-- A cost that is a number of the format fits an empty store. -/
theorem fits_empty (hdouble : IsDouble c) (hle : c ≤ bound) :
    (Number.finite bound).lt ((Number.finite 0).add (.finite c)) = false := by
  have hsum : IsDouble (0 + c) := by rwa [zero_add]
  rw [Number.add_finite hsum, Number.lt_finite, zero_add]
  exact decide_eq_false (not_lt.mpr hle)

/-! ## Token buckets -/

namespace TokenBucketStrategy

variable {s : TokenBucketStrategy}

theorem Capped.refuses (h : s.Capped bound) (hover : (Number.finite bound).lt cost) (key : String)
    (now : Number) : (s.check key cost now).1 = false := by
  obtain ⟨q, hq, -, -, hle⟩ := (h.bucket key now).2
  rw [check_fst, hq]
  cases cost with
  | nan | negInf => cases hover
  | posInf => rfl
  | finite c =>
    rw [Number.lt_finite, decide_eq_true_iff] at hover
    rw [Number.lt_finite, decide_eq_true (hle.trans_lt hover)]
    rfl

/-- The span refills a bucket, and the one of the key is full, or at the deadline it has had the span
after half of what is refilled until then made up for what it lacks. -/
structure Ripe (bound span : ℚ) (s : TokenBucketStrategy) (key : String) (deadline : ℚ) : Prop where
  rate : ∃ r, s.refillRatePerMs = .finite r ∧ bound ≤ span * r
  refilled : ∀ bucket r, s.buckets.get? key = some bucket → s.refillRatePerMs = .finite r →
    ∃ tokens last, bucket.tokens = .finite tokens ∧ bucket.lastRefill = .finite last ∧
      (tokens = bound ∨
        last + span ≤ deadline ∧ bound ≤ tokens + (deadline - span - last) * (r / 2))

/-- The bucket of the key was refilled at an instant. -/
def Dated (s : TokenBucketStrategy) (key : String) : Prop :=
  ∀ bucket, s.buckets.get? key = some bucket → ∃ last, bucket.lastRefill = .finite last

/-- Rounding does not lose what is credited to the bucket of a key at an instant: its age is exact,
and its refill is two units of the last digit of its size or more. -/
def Credits (s : TokenBucketStrategy) (key : String) (now : ℚ) : Prop :=
  ∀ bucket last r size, s.buckets.get? key = some bucket → bucket.lastRefill = .finite last →
    s.refillRatePerMs = .finite r → s.bucketSize = .finite size →
    (Number.finite 0).lt (((Number.finite now).sub bucket.lastRefill).mul s.refillRatePerMs) →
      IsDouble (now - last) ∧ 2 * 2 ^ Binary64.exponent size ≤ (now - last) * r

theorem Ripe.dated (h : s.Ripe bound span key deadline) : s.Dated key := by
  intro bucket hget
  obtain ⟨r, hr, -⟩ := h.rate
  obtain ⟨-, last, -, hlast, -⟩ := h.refilled bucket r hget hr
  exact ⟨last, hlast⟩

/-- A rate that refills a bucket is positive. -/
theorem rate_pos {r : ℚ} (hrefill : bound ≤ span * r) (hbound : 0 < bound) (hnonneg : 0 ≤ span) :
    0 < r := by
  by_contra hnot
  linarith [mul_nonpos_of_nonneg_of_nonpos hnonneg (not_lt.mp hnot)]

/-- A bucket with a date is full some day: three spans later. -/
theorem Ripe.of_dated (hdated : s.Dated key) (hcapped : s.Capped bound)
    (hrate : ∃ r, s.refillRatePerMs = .finite r ∧ bound ≤ span * r) (hnonneg : 0 ≤ span) : ∃ d, s.Ripe bound span key d := by
  obtain ⟨r, hr, hrefill⟩ := hrate
  cases hget : s.buckets.get? key with
  | none =>
    refine ⟨0, ⟨r, hr, hrefill⟩, fun bucket _ hget' _ => ?_⟩
    cases hget.symm.trans hget'
  | some bucket =>
    obtain ⟨last, hlast⟩ := hdated bucket hget
    obtain ⟨tokens, htokens, -, hleft, -⟩ := hcapped.tokens key bucket hget
    refine ⟨last + 3 * span, ⟨r, hr, hrefill⟩, fun bucket' r' hget' hr' => ?_⟩
    cases hget.symm.trans hget'
    cases hr.symm.trans hr'
    refine ⟨tokens, last, htokens, hlast, .inr ⟨by linarith, ?_⟩⟩
    have htwice : (last + 3 * span - span - last) * (r / 2) = span * r := by ring
    rw [htwice]
    exact hrefill.trans (le_add_of_nonneg_left hleft)

theorem get?_set_ne {buckets : OrderedMap String Bucket} (hne : key ≠ key') {b bucket : Bucket}
    (hget : (buckets.set key' b).get? key = some bucket) : buckets.get? key = some bucket := by
  rwa [OrderedMap.get?_set, if_neg hne] at hget

theorem Dated.set (h : s.Dated key) (key' : String) {b : Bucket}
    (hb : ∃ last, b.lastRefill = .finite last) :
    Dated { s with buckets := s.buckets.set key' b } key := by
  intro bucket hget
  dsimp only at hget
  rw [OrderedMap.get?_set] at hget
  split at hget
  · cases hget
    exact hb
  · exact h bucket hget

theorem Dated.bucket (h : s.Dated key) (key' : String) (q : ℚ) :
    (s.bucket key' (.finite q)).2.Dated key := by
  rcases s.bucket_cases key' (.finite q) with ⟨hsame, -⟩ | ⟨tokens, heq⟩
  · rwa [hsame]
  · rw [heq]
    exact h.set key' ⟨q, rfl⟩

theorem Dated.check (h : s.Dated key) (key' : String) (cost : Number) (q : ℚ) :
    (s.check key' cost (.finite q)).2.Dated key := by
  have hbucket := h.bucket key' q
  rw [TokenBucketStrategy.check]
  dsimp only
  split
  · exact hbucket
  · by_cases hne : key = key'
    · subst hne
      refine hbucket.set key ?_
      rcases s.bucket_cases key (.finite q) with ⟨-, hget⟩ | ⟨tokens, heq⟩
      · exact h (s.bucket key (.finite q)).1 hget
      · rw [heq]
        exact ⟨q, rfl⟩
    · exact fun bucket hget => hbucket bucket (get?_set_ne hne hget)

@[simp] theorem bucket_rate (s : TokenBucketStrategy) (key : String) (now : Number) :
    (s.bucket key now).2.refillRatePerMs = s.refillRatePerMs := by
  rcases s.bucket_cases key now with ⟨hsame, -⟩ | ⟨tokens, heq⟩
  · rw [hsame]
  · rw [heq]

@[simp] theorem check_rate (s : TokenBucketStrategy) (key : String) (cost now : Number) :
    (s.check key cost now).2.refillRatePerMs = s.refillRatePerMs := by
  rw [TokenBucketStrategy.check]
  dsimp only
  split
  · rw [bucket_rate]
  · exact bucket_rate s key now

/-- A store that holds no other bucket of the key. -/
theorem Ripe.of_get? (h : s.Ripe bound span key deadline) {buckets : OrderedMap String Bucket}
    (hget : ∀ bucket, buckets.get? key = some bucket → s.buckets.get? key = some bucket) :
    Ripe bound span { s with buckets } key deadline :=
  ⟨h.rate, fun bucket r hbucket => h.refilled bucket r (hget bucket hbucket)⟩

theorem Ripe.bucket (h : s.Ripe bound span key deadline) (hne : key ≠ key') (now : Number) :
    (s.bucket key' now).2.Ripe bound span key deadline := by
  rcases s.bucket_cases key' now with ⟨hsame, -⟩ | ⟨tokens, heq⟩
  · rwa [hsame]
  · rw [heq]
    exact h.of_get? fun bucket => get?_set_ne hne

/-- Refills that are not lost leave a bucket its deadline. -/
theorem Ripe.credited (h : s.Ripe bound span key deadline) (hcapped : s.Capped bound)
    (hbound : 0 < bound) (hnonneg : 0 ≤ span) (hcredits : s.Credits key q) :
    (s.bucket key (.finite q)).2.Ripe bound span key deadline := by
  obtain ⟨r, hr, hrefill⟩ := h.rate
  have hpos := rate_pos hrefill hbound hnonneg
  have hset : ∀ {x : Number} (tokens : ℚ), x = .finite tokens → (tokens = bound ∨
      q + span ≤ deadline ∧ bound ≤ tokens + (deadline - span - q) * (r / 2)) →
      Ripe bound span { s with buckets := s.buckets.set key ⟨x, .finite q⟩ } key deadline := by
    intro x tokens hx htokens
    refine ⟨h.rate, fun bucket r' hget hr' => ?_⟩
    cases hr.symm.trans hr'
    dsimp only at hget
    rw [OrderedMap.get?_set_self] at hget
    cases hget
    exact ⟨tokens, q, hx, rfl, htokens⟩
  rw [TokenBucketStrategy.bucket]
  split
  · exact hset bound hcapped.size (.inl rfl)
  · next b hget =>
    dsimp only
    split
    · next hadd =>
      obtain ⟨tokens, last, htokens, hlast, hlacks⟩ := h.refilled b r hget hr
      obtain ⟨t, ht, -, hleft, -⟩ := hcapped.tokens key b hget
      cases htokens.symm.trans ht
      obtain ⟨hage, hunits⟩ := hcredits b last r bound hget hlast hr hcapped.size hadd
      have hrefilled : ((Number.finite q).sub b.lastRefill).mul s.refillRatePerMs =
          .of ((q - last) * r) := by
        rw [hlast, hr, Number.sub_finite hage]
        rfl
      obtain ⟨x, hx, hcredited⟩ := refill_kept hcapped.double hbound hleft hunits
      rw [← hcapped.size, ← htokens, ← hrefilled] at hx
      refine hset x hx (hcredited.imp id fun hless => ?_)
      obtain ⟨hlt, hhalf⟩ := hless
      have hunit := Binary64.two_zpow_pos (Binary64.exponent bound)
      rcases hlacks with rfl | ⟨-, hlacks⟩
      · linarith
      · have hmade : bound ≤ x + (deadline - span - q) * (r / 2) := by linarith
        refine ⟨?_, hmade⟩
        -- a bucket that is not full yet has not had what it lacked
        by_contra hlate
        have hover := mul_nonpos_of_nonpos_of_nonneg
          (by linarith : deadline - span - q ≤ 0) (half_pos hpos).le
        linarith
    · exact h

theorem Ripe.check (h : s.Ripe bound span key deadline) (hne : key ≠ key') (cost now : Number) :
    (s.check key' cost now).2.Ripe bound span key deadline := by
  have hbucket := h.bucket hne now
  rw [TokenBucketStrategy.check]
  dsimp only
  split
  · exact hbucket
  · exact hbucket.of_get? fun bucket => get?_set_ne hne

theorem Ripe.cleanup (h : s.Ripe bound span key deadline) (now : Number) :
    (s.cleanup now).Ripe bound span key deadline :=
  h.of_get? fun _ hget => (OrderedMap.get?_filter.mp hget).1

/-- The bucket is full at the deadline, however its refill is rounded. -/
theorem Ripe.full (h : s.Ripe bound span key deadline) (hcapped : s.Capped bound)
    (hspan : IsDouble span) (hpos : 0 < bound) (hnonneg : 0 ≤ span) (hle : deadline ≤ q) :
    (s.bucket key (.finite q)).1.tokens = .finite bound := by
  rw [TokenBucketStrategy.bucket]
  split
  · exact hcapped.size
  · next b hget =>
    obtain ⟨r, hr, hrefill⟩ := h.rate
    obtain ⟨t, last, ht, hlast, hlacks⟩ := h.refilled b r hget hr
    obtain ⟨t', ht', -, hleft, -⟩ := hcapped.tokens key b hget
    cases ht.symm.trans ht'
    have hmin : ∀ {x : Number} {d : ℚ}, AtLeast d x → bound ≤ t + d →
        s.bucketSize.min (b.tokens.add x) = .finite bound := by
      rintro _ d (rfl | ⟨a, rfl, hle'⟩) hmore
      · rw [hcapped.size, ht]
        exact AtLeast.min (.inl rfl)
      · rw [hcapped.size, ht]
        exact (atLeast_of hcapped.double hpos.le (by linarith)).min
    dsimp only
    rcases hlacks with hfull | ⟨hdue, -⟩
    · split
      · next hadd => exact hmin (atLeast_zero hadd) (by linarith)
      · rw [ht, hfull]
    · have hrate := rate_pos hrefill hpos hnonneg
      have hage : AtLeast span ((Number.finite q).sub b.lastRefill) := by
        rw [hlast, Number.sub, Number.neg, Number.add, ← sub_eq_add_neg]
        exact atLeast_of hspan hnonneg (by linarith)
      have hadd : AtLeast bound (((Number.finite q).sub b.lastRefill).mul s.refillRatePerMs) := by
        rw [hr]
        rcases hage with hinf | ⟨age, hage, hspanned⟩
        · rw [hinf]
          refine .inl ?_
          simp [Number.mul, Number.sign, sign_pos hrate, Number.infinity]
        · rw [hage]
          refine atLeast_of hcapped.double hpos.le (hrefill.trans ?_)
          exact mul_le_mul_of_nonneg_right hspanned hrate.le
      rw [if_pos (hadd.lt hpos)]
      exact hmin hadd (le_add_of_nonneg_left hleft)

theorem Ripe.grants (h : s.Ripe bound span key deadline) (hcapped : s.Capped bound)
    (hspan : IsDouble span) (hpos : 0 < bound) (hnonneg : 0 ≤ span) (hle : deadline ≤ q)
    (hcost : c ≤ bound) : (s.check key (.finite c) (.finite q)).1 = true := by
  have hfits : (Number.finite bound).lt (.finite c) = false :=
    decide_eq_false (not_lt.mpr hcost)
  rw [check_fst, h.full hcapped hspan hpos hnonneg hle, hfits]
  rfl

end TokenBucketStrategy

/-! ## Fixed windows -/

namespace FixedWindowStrategy

variable {s : FixedWindowStrategy}

theorem Capped.refuses (h : s.Capped bound) (hcost : ∀ c, cost = .finite c → IsDouble c)
    (hover : (Number.finite bound).lt cost) (key : String) (now : Number) :
    (s.check key cost now).1 = false := by
  rw [check_fst, h.limit, over_of_lt (h.counterFor key now) hcost hover]
  rfl

/-- The window of the key is over at the deadline. -/
structure Ripe (span : ℚ) (s : FixedWindowStrategy) (key : String) (deadline : ℚ) : Prop where
  windowMs : s.windowMs = .finite span
  ended : ∀ counter, s.counters.get? key = some counter →
    ∃ start, counter.windowStart = .finite start ∧ start + span ≤ deadline

theorem Ripe.of_get? (h : s.Ripe span key deadline) {counters : OrderedMap String Counter}
    (hget : ∀ counter, counters.get? key = some counter → s.counters.get? key = some counter) :
    Ripe span { s with counters } key deadline :=
  ⟨h.windowMs, fun counter hcounter => h.ended counter (hget counter hcounter)⟩

theorem Ripe.touched (h : s.Ripe span key deadline) (key' : String) (count : Number) (start : ℚ) :
    ∃ d, Ripe span { s with counters := s.counters.set key' ⟨count, .finite start⟩ } key d := by
  refine ⟨max deadline (start + span), h.windowMs, fun counter hget => ?_⟩
  dsimp only at hget
  rw [OrderedMap.get?_set] at hget
  split at hget
  · cases hget
    exact ⟨start, rfl, le_max_right _ _⟩
  · obtain ⟨start', hstart, hle⟩ := h.ended counter hget
    exact ⟨start', hstart, hle.trans (le_max_left _ _)⟩

theorem get?_set_ne {counters : OrderedMap String Counter} (hne : key ≠ key') {c counter : Counter}
    (hget : (counters.set key' c).get? key = some counter) : counters.get? key = some counter := by
  rwa [OrderedMap.get?_set, if_neg hne] at hget

theorem Ripe.check (h : s.Ripe span key deadline) (hne : key ≠ key') (cost now : Number) :
    (s.check key' cost now).2.Ripe span key deadline := by
  rw [check_eq]
  split
  · dsimp only
    split
    · exact h.of_get? fun counter => get?_set_ne hne
    · exact h
  · exact h.of_get? fun counter => get?_set_ne hne

theorem Ripe.exists_check (h : s.Ripe span key deadline) (key' : String) (cost : Number)
    (hstart : StartExact s.windowMs (.finite q)) :
    ∃ d, (s.check key' cost (.finite q)).2.Ripe span key d := by
  by_cases hne : key = key'
  · subst hne
    have hcounter : ∃ start, (s.counterFor key (.finite q)).windowStart = .finite start := by
      rw [h.windowMs] at hstart
      have hnew : ∃ start, windowStart s.windowMs (.finite q) = .finite start := by
        rw [h.windowMs]
        exact ⟨_, hstart⟩
      cases hget : s.counters.get? key with
      | none =>
        rw [counterFor_none hget]
        exact hnew
      | some counter =>
        rw [counterFor_some hget]
        split
        · exact (h.ended counter hget).imp fun start hstart => hstart.1
        · exact hnew
    obtain ⟨start, hstart⟩ := hcounter
    have htouched : ∀ count : Number, ∃ d, Ripe span { s with
        counters := s.counters.set key ⟨count, (s.counterFor key (.finite q)).windowStart⟩ } key d := by
      intro count
      rw [hstart]
      exact h.touched key count start
    rw [check_eq]
    split
    · dsimp only
      split
      · exact htouched (s.counterFor key (.finite q)).count
      · exact ⟨deadline, h⟩
    · exact htouched _
  · exact ⟨deadline, h.check hne cost (.finite q)⟩

theorem Ripe.cleanup (h : s.Ripe span key deadline) (now : Number) :
    (s.cleanup now).Ripe span key deadline :=
  h.of_get? fun _ hget => (OrderedMap.get?_filter.mp hget).1

/-- A counter of a window that is over counts nothing. -/
theorem Ripe.grants (h : s.Ripe span key deadline) (hcapped : s.Capped bound) (hpos : 0 < span)
    (hle : deadline ≤ q) (hstart : StartExact s.windowMs (.finite q)) (hdouble : IsDouble c)
    (hcost : c ≤ bound) : (s.check key (.finite c) (.finite q)).1 = true := by
  have hwindow := h.windowMs
  rw [hwindow] at hstart
  have hcount : (s.counterFor key (.finite q)).count = .finite 0 := by
    cases hget : s.counters.get? key with
    | none => rw [counterFor_none hget]
    | some counter =>
      obtain ⟨start, hold, hover⟩ := h.ended counter hget
      have hlater : start ≠ RabbitMQ.FixedWindowStrategy.windowStart span q := by
        have hnext : q < (⌊q / span⌋ + 1) * span := by
          rw [← div_lt_iff₀ hpos]
          exact Int.lt_floor_add_one _
        rw [RabbitMQ.FixedWindowStrategy.windowStart]
        rintro rfl
        linarith
      have hne : counter.windowStart.eq (windowStart s.windowMs (.finite q)) = false := by
        rw [hwindow, hold, hstart, Number.eq_finite]
        exact decide_eq_false hlater
      rw [counterFor_some hget, if_neg (Bool.eq_false_iff.mp hne)]
  rw [check_fst, hcapped.limit, hcount, fits_empty hdouble hcost]
  rfl

end FixedWindowStrategy

/-! ## Window logs -/

namespace WindowLogStrategy

variable {s : WindowLogStrategy}

theorem Capped.refuses (h : s.Capped bound) (hexact : s.TotalExact key now)
    (hcost : ∀ c, cost = .finite c → IsDouble c) (hover : (Number.finite bound).lt cost) :
    (s.occupy key cost now).1.isSome = false := by
  rw [occupy_isSome, h.limit, over_of_lt (h.evicted hexact).within hcost hover]
  rfl

/-- The entries of the key have all expired after the deadline. -/
structure Ripe (span : ℚ) (s : WindowLogStrategy) (key : String) (deadline : ℚ) : Prop where
  windowMs : s.windowMs = .finite span
  expired : ∀ entry ∈ (s.windowFor key).entries,
    ∃ t, entry.timestamp = .finite t ∧ t + span < deadline

theorem evict_sublist (windowMs now : Number) (entries : List LogEntry) (total : Number) :
    ∀ entry ∈ (evict windowMs now entries total).entries, entry ∈ entries := by
  induction entries generalizing total with
  | nil => exact fun _ hentry => hentry
  | cons entry entries ih =>
    rw [evict]
    split
    · exact fun e he => List.mem_cons_of_mem _ (ih _ e he)
    · exact fun _ he => he

/-- A store whose log of the key holds no other entries. -/
theorem Ripe.of_entries (h : s.Ripe span key deadline) {windows : OrderedMap String WindowData}
    (hentries : ∀ entry ∈ (windowFor { s with windows } key).entries,
      entry ∈ (s.windowFor key).entries) : Ripe span { s with windows } key deadline :=
  ⟨h.windowMs, fun entry hentry => h.expired entry (hentries entry hentry)⟩

theorem entries_set (s : WindowLogStrategy) (key key' : String) (windowData : WindowData) :
    (windowFor { s with windows := s.windows.set key' windowData } key).entries =
      if key = key' then windowData.entries else (s.windowFor key).entries := by
  rw [windowFor, windowFor]
  dsimp only
  rw [OrderedMap.get?_set]
  split <;> rfl

theorem mem_evicted {entry : LogEntry} (s : WindowLogStrategy) (key : String) (now : Number)
    (h : entry ∈ (s.evictExpired (s.windowFor key) now).entries) :
    entry ∈ (s.windowFor key).entries := evict_sublist _ _ _ _ entry h

theorem Ripe.set_evicted (h : s.Ripe span key deadline) (key' : String) (now : Number) :
    Ripe span { s with windows := s.windows.set key' (s.evictExpired (s.windowFor key') now) } key
      deadline := by
  refine h.of_entries fun entry hentry => ?_
  rw [entries_set] at hentry
  split at hentry
  · next heq => exact heq ▸ mem_evicted s key' now hentry
  · exact hentry

theorem Ripe.occupy (h : s.Ripe span key deadline) (hne : key ≠ key') (cost now : Number) :
    (s.occupy key' cost now).2.Ripe span key deadline := by
  rw [WindowLogStrategy.occupy]
  split
  · exact h.set_evicted key' now
  · refine h.of_entries fun entry hentry => ?_
    rwa [entries_set, if_neg hne] at hentry

theorem Ripe.exists_occupy (h : s.Ripe span key deadline) (key' : String) (cost : Number) (q : ℚ) :
    ∃ d, (s.occupy key' cost (.finite q)).2.Ripe span key d := by
  rw [WindowLogStrategy.occupy]
  split
  · exact ⟨deadline, h.set_evicted key' (.finite q)⟩
  · refine ⟨max deadline (q + span + 1), h.windowMs, fun entry hentry => ?_⟩
    rw [entries_set] at hentry
    split at hentry
    · next heq =>
      rcases List.mem_append.mp hentry with hold | hnew
      · obtain ⟨t, ht, hlt⟩ := h.expired entry (heq ▸ mem_evicted s key' (.finite q) hold)
        exact ⟨t, ht, hlt.trans_le (le_max_left _ _)⟩
      · cases List.mem_singleton.mp hnew
        exact ⟨q, rfl, (lt_add_one _).trans_le (le_max_right _ _)⟩
    · obtain ⟨t, ht, hlt⟩ := h.expired entry hentry
      exact ⟨t, ht, hlt.trans_le (le_max_left _ _)⟩

theorem Ripe.remaining (h : s.Ripe span key deadline) (key' : String) (now : Number) :
    (s.remaining key' now).2.Ripe span key deadline := by
  rw [WindowLogStrategy.remaining]
  cases hget : s.windows.get? key' with
  | none => exact h
  | some windowData =>
    have hripe := h.set_evicted key' now
    rw [windowFor, hget, Option.getD_some] at hripe
    exact hripe

theorem Ripe.sweep (h : s.Ripe span key deadline) (key' : String) (now : Number) :
    (sweep now s key').Ripe span key deadline := by
  rw [WindowLogStrategy.sweep]
  cases hget : s.windows.get? key' with
  | none => exact h
  | some windowData =>
    have hripe := h.set_evicted key' now
    rw [windowFor, hget, Option.getD_some] at hripe
    dsimp only
    split
    · refine h.of_entries fun entry hentry => ?_
      rw [windowFor] at hentry ⊢
      dsimp only at hentry
      rw [OrderedMap.get?_erase] at hentry
      split at hentry
      · cases hentry
      · exact hentry
    · exact hripe

theorem Ripe.cleanup (h : s.Ripe span key deadline) (now : Number) :
    (s.cleanup now).Ripe span key deadline := by
  rw [WindowLogStrategy.cleanup]
  generalize s.windows.keys = keys
  induction keys generalizing s with
  | nil => exact h
  | cons key' keys ih => exact ih (h.sweep key' now)

/-- A log whose entries have all expired is evicted to nothing. -/
theorem Totalled.evict_all {entries : List LogEntry} {total : Number}
    (h : Totalled bound ⟨entries, total⟩)
    (hages : ∀ entry ∈ entries, (Number.finite q).DiffExact entry.timestamp)
    (hexact : EvictExact (.finite span) (.finite q) entries total)
    (hexpired : ∀ entry ∈ entries, ∃ t, entry.timestamp = .finite t ∧ t + span < q) :
    (WindowLogStrategy.evict (.finite span) (.finite q) entries total).total = .finite 0 := by
  have hevicted := h.evict hexact
  have hnil : (WindowLogStrategy.evict (.finite span) (.finite q) entries total).entries = [] := by
    clear h hexact hevicted
    induction entries generalizing total with
    | nil => rfl
    | cons entry entries ih =>
      obtain ⟨t, ht, hlt⟩ := hexpired entry List.mem_cons_self
      have hage := hages entry List.mem_cons_self
      rw [ht] at hage
      have hover : (Number.finite span).lt ((Number.finite q).sub entry.timestamp) = true := by
        rw [ht, Number.sub_finite hage]
        exact decide_eq_true (by linarith)
      rw [WindowLogStrategy.evict, if_pos hover]
      exact ih (fun e he => hages e (List.mem_cons_of_mem _ he))
        fun e he => hexpired e (List.mem_cons_of_mem _ he)
  obtain ⟨sum, htotal, hcosts⟩ := hevicted.costs
  rw [hnil] at hcosts
  rw [htotal, show sum = 0 from hcosts]

theorem Ripe.grants (h : s.Ripe span key deadline) (hcapped : s.Capped bound) (hle : deadline ≤ q)
    (hexact : s.ExpiryExact key (.finite q)) (hdouble : IsDouble c) (hcost : c ≤ bound) :
    (s.occupy key (.finite c) (.finite q)).1.isSome = true := by
  obtain ⟨hages, htotals⟩ := hexact
  have htotalled : Totalled bound (s.windowFor key) := by
    rw [windowFor]
    cases hget : s.windows.get? key with
    | none => exact totalled_empty hcapped.nonneg
    | some windowData => exact hcapped.totals key windowData hget
  rw [TotalExact, h.windowMs] at htotals
  have hzero : (s.evictExpired (s.windowFor key) (.finite q)).total = .finite 0 := by
    rw [evictExpired, h.windowMs]
    refine Totalled.evict_all htotalled hages htotals fun entry hentry => ?_
    obtain ⟨t, ht, hlt⟩ := h.expired entry hentry
    exact ⟨t, ht, hlt.trans_le hle⟩
  rw [occupy_isSome, hcapped.limit, hzero, fits_empty hdouble hcost]
  rfl

end WindowLogStrategy

/-! ## Strategies -/

namespace Limiter

/-- The key has the whole capacity again at the deadline. -/
def Ripe (bound span : ℚ) (limiter : Limiter) (key : String) (deadline : ℚ) : Prop :=
  match limiter with
  | .tokenBucket s => s.Ripe bound span key deadline
  | .leakyBucket s => s.toWindowLogStrategy.Ripe span key deadline
  | .fixedWindow s => s.Ripe span key deadline
  | .slidingWindow s => s.Ripe span key deadline

/-- Rounding does not lose what a read of the key credits, where it credits anything. -/
def Credits (limiter : Limiter) (key : String) (now : ℚ) : Prop :=
  match limiter with
  | .tokenBucket s => s.Credits key now
  | .leakyBucket _ | .fixedWindow _ | .slidingWindow _ => True

/-- The window of an instant, where there are windows, needs no rounding. -/
def StartExact (limiter : Limiter) (now : Number) : Prop :=
  match limiter with
  | .fixedWindow s => FixedWindowStrategy.StartExact s.windowMs now
  | .tokenBucket _ | .leakyBucket _ | .slidingWindow _ => True

/-- What a check at an instant starts from needs no rounding, but for the refill of a bucket. -/
def ClockExact (limiter : Limiter) (key : String) (now : Number) : Prop :=
  match limiter with
  | .tokenBucket _ => True
  | .leakyBucket s => s.ExpiryExact key now
  | .fixedWindow s => FixedWindowStrategy.StartExact s.windowMs now
  | .slidingWindow s => s.ExpiryExact key now

variable {limiter : Limiter}

theorem Capped.capacity (h : limiter.Capped bound) : limiter.capacity = .finite bound := by
  cases limiter with
  | tokenBucket s => exact h.size
  | leakyBucket s | slidingWindow s => exact h.limit
  | fixedWindow s => exact h.limit

theorem Capped.refuses (h : limiter.Capped bound)
    (hexact : ∀ s ∈ limiter.log?, s.TotalExact key now)
    (hcost : ∀ c, cost = .finite c → IsDouble c) (hover : (Number.finite bound).lt cost) :
    (limiter.check key cost now).1 = false := by
  cases limiter with
  | tokenBucket s => exact TokenBucketStrategy.Capped.refuses h hover key now
  | leakyBucket s =>
    refine (s.check_fst key cost now).trans ?_
    exact WindowLogStrategy.Capped.refuses h (hexact s.toWindowLogStrategy rfl) hcost hover
  | fixedWindow s => exact FixedWindowStrategy.Capped.refuses h hcost hover key now
  | slidingWindow s => exact WindowLogStrategy.Capped.refuses h (hexact s rfl) hcost hover

theorem Ripe.grants (h : limiter.Ripe bound span key deadline) (hcapped : limiter.Capped bound)
    (hspan : IsDouble span) (hbound : 0 < bound) (hpos : 0 < span) (hle : deadline ≤ q)
    (hexact : limiter.ClockExact key (.finite q)) (hdouble : IsDouble c) (hcost : c ≤ bound) :
    (limiter.check key (.finite c) (.finite q)).1 = true := by
  cases limiter with
  | tokenBucket s =>
    exact TokenBucketStrategy.Ripe.grants h hcapped hspan hbound hpos.le hle hcost
  | leakyBucket s =>
    refine (s.check_fst key (.finite c) (.finite q)).trans ?_
    exact WindowLogStrategy.Ripe.grants h hcapped hle hexact hdouble hcost
  | fixedWindow s => exact FixedWindowStrategy.Ripe.grants h hcapped hpos hle hexact hdouble hcost
  | slidingWindow s => exact WindowLogStrategy.Ripe.grants h hcapped hle hexact hdouble hcost

theorem Ripe.check (h : limiter.Ripe bound span key deadline) (hne : key ≠ key') (cost now : Number) :
    (limiter.check key' cost now).2.2.Ripe bound span key deadline := by
  cases limiter with
  | tokenBucket s => exact TokenBucketStrategy.Ripe.check h hne cost now
  | leakyBucket s =>
    have hripe := WindowLogStrategy.Ripe.occupy h hne cost now
    rw [← s.check_log] at hripe
    exact hripe
  | fixedWindow s => exact FixedWindowStrategy.Ripe.check h hne cost now
  | slidingWindow s => exact WindowLogStrategy.Ripe.occupy h hne cost now

theorem Ripe.exists_check (h : limiter.Ripe bound span key deadline) (hpos : 0 < span)
    (key' : String) (cost : Number)
    (hcapped : (limiter.check key' cost (.finite q)).2.2.Capped bound)
    (hstart : limiter.StartExact (.finite q)) :
    ∃ d, (limiter.check key' cost (.finite q)).2.2.Ripe bound span key d := by
  cases limiter with
  | tokenBucket s =>
    have hrate := TokenBucketStrategy.Ripe.rate h
    rw [← s.check_rate key' cost (.finite q)] at hrate
    have hdated := (TokenBucketStrategy.Ripe.dated h).check key' cost q
    exact TokenBucketStrategy.Ripe.of_dated hdated hcapped hrate hpos.le
  | leakyBucket s =>
    obtain ⟨d, hripe⟩ := WindowLogStrategy.Ripe.exists_occupy h key' cost q
    rw [← s.check_log] at hripe
    exact ⟨d, hripe⟩
  | fixedWindow s => exact FixedWindowStrategy.Ripe.exists_check h key' cost hstart
  | slidingWindow s => exact WindowLogStrategy.Ripe.exists_occupy h key' cost q

theorem Ripe.remaining (h : limiter.Ripe bound span key deadline) (hcapped : limiter.Capped bound)
    (hbound : 0 < bound) (hpos : 0 < span) (hkeeps : key = key' → limiter.Credits key' q) :
    (limiter.remaining key' (.finite q)).2.Ripe bound span key deadline := by
  cases limiter with
  | tokenBucket s =>
    by_cases hkey : key = key'
    · subst hkey
      exact TokenBucketStrategy.Ripe.credited h hcapped hbound hpos.le (hkeeps rfl)
    · exact TokenBucketStrategy.Ripe.bucket h hkey (.finite q)
  | leakyBucket s | slidingWindow s => exact WindowLogStrategy.Ripe.remaining h key' (.finite q)
  | fixedWindow s => exact h

theorem Ripe.exists_remaining (h : limiter.Ripe bound span key deadline)
    (hcapped : limiter.Capped bound) (hpos : 0 < span) (key' : String) (q : ℚ) : ∃ d, (limiter.remaining key' (.finite q)).2.Ripe bound span key d := by
  cases limiter with
  | tokenBucket s =>
    have hrate := TokenBucketStrategy.Ripe.rate h
    rw [← s.bucket_rate key' (.finite q)] at hrate
    have hdated := (TokenBucketStrategy.Ripe.dated h).bucket key' q
    have hcapped' := (TokenBucketStrategy.Capped.bucket hcapped key' (.finite q)).1
    exact TokenBucketStrategy.Ripe.of_dated hdated hcapped' hrate hpos.le
  | leakyBucket s | slidingWindow s =>
    exact ⟨deadline, WindowLogStrategy.Ripe.remaining h key' (.finite q)⟩
  | fixedWindow s => exact ⟨deadline, h⟩

theorem Ripe.cleanup (h : limiter.Ripe bound span key deadline) (now : Number) :
    (limiter.cleanup now).Ripe bound span key deadline := by
  cases limiter with
  | tokenBucket s => exact TokenBucketStrategy.Ripe.cleanup h now
  | leakyBucket s | slidingWindow s => exact WindowLogStrategy.Ripe.cleanup h now
  | fixedWindow s => exact FixedWindowStrategy.Ripe.cleanup h now

end Limiter

/-! ## Rate limiters -/

namespace RateLimiter

/-- A check, a read or a sweep that is sound, in a window that needs no rounding. -/
def Steady (r : RateLimiter) (call : Call) : Prop :=
  r.Sound call ∧
    match call.operation with
    | .checkRateLimit _ _ => r.limiter.StartExact (.finite call.now)
    | .getStatus _ | .getRemainingTokens _ | .cleanup => True
    | .blockKey _ _ | .reset _ => False

/-- No key is blocked, and each has the whole capacity again some day. -/
structure Free (bound span : ℚ) (r : RateLimiter) : Prop where
  blocked : r.blocked = .empty
  capped : r.limiter.Capped bound
  ripe : ∀ key, ∃ deadline, r.limiter.Ripe bound span key deadline

variable {r : RateLimiter} {call : Call}

/-- A free key is checked by the strategy, or its cost can never be. -/
theorem Free.checkRateLimit (h : Free bound span r) (key : String) (cost now : Number) :
    (r.limiter.capacity.lt cost = true ∧ r.checkRateLimit key cost now =
      (.unsatisfiable cost r.strategy r.limiter.capacity, r)) ∨
    (r.limiter.capacity.lt cost = false ∧ r.checkRateLimit key cost now =
      (.resolved (r.limiter.check key cost now).1 (r.limiter.check key cost now).2.1,
        { r with limiter := (r.limiter.check key cost now).2.2 })) := by
  rw [RateLimiter.checkRateLimit, h.blocked, OrderedMap.get?_empty]
  cases r.limiter.capacity.lt cost with
  | true => exact .inl ⟨rfl, rfl⟩
  | false => exact .inr ⟨rfl, rfl⟩

theorem Free.step (h : Free bound span r) (hpos : 0 < span) (hsteady : r.Steady call) :
    Free bound span (r.step call).1 := by
  have hcapped := capped_step h.capped hsteady.1
  obtain ⟨now, operation⟩ := call
  obtain ⟨hsound, hstart⟩ := hsteady
  cases operation with
  | checkRateLimit key cost =>
    rw [RateLimiter.step] at hcapped ⊢
    dsimp only at hcapped ⊢
    rcases h.checkRateLimit key cost (.finite now) with ⟨-, heq⟩ | ⟨-, heq⟩
    · rw [heq]
      exact h
    · rw [heq] at hcapped ⊢
      refine ⟨h.blocked, hcapped, fun key' => ?_⟩
      obtain ⟨deadline, hripe⟩ := h.ripe key'
      exact hripe.exists_check hpos key cost hcapped hstart
  | getStatus key | getRemainingTokens key =>
    refine ⟨h.blocked, hcapped, fun key' => ?_⟩
    obtain ⟨deadline, hripe⟩ := h.ripe key'
    exact hripe.exists_remaining h.capped hpos key now
  | cleanup =>
    refine ⟨?_, hcapped, fun key' => ?_⟩
    · rw [RateLimiter.step]
      dsimp only
      rw [RateLimiter.cleanup, h.blocked]
      rfl
    · obtain ⟨deadline, hripe⟩ := h.ripe key'
      exact ⟨deadline, hripe.cleanup (.finite now)⟩
  | blockKey | reset => exact absurd hstart id

theorem Free.run (h : Free bound span r) (hpos : 0 < span) {calls : List Call}
    (hcalls : Each RateLimiter.step Steady r calls) : Free bound span (r.run calls) :=
  Each.invariant (fun hfree hsteady => hfree.step hpos hsteady) h hcalls

end RateLimiter
end Doubles
end RabbitMQ

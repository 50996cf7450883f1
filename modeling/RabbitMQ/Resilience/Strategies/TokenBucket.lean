import Mathlib.Data.Rat.Floor
import Mathlib.Tactic.Linarith
import RabbitMQ.Lib.Meter

/-! Token buckets that are refilled when they are used. -/

namespace RabbitMQ

open Meter

structure Bucket where
  tokens : ℚ
  lastRefill : ℚ
  deriving DecidableEq

structure TokenBucketStrategy where
  bucketSize : ℚ
  refillRatePerMs : ℚ
  windowMs : ℚ
  buckets : OrderedMap String Bucket

namespace TokenBucketStrategy

def new (maxRequests windowMs : ℚ) (burstable : Bool) (burstLimit : ℚ) : TokenBucketStrategy where
  bucketSize := if burstable then burstLimit else maxRequests
  refillRatePerMs := maxRequests / windowMs
  windowMs := windowMs
  buckets := .empty

def capacity (s : TokenBucketStrategy) : ℚ := s.bucketSize

/-- `#bucket`: the bucket of a key, brought up to date. -/
def bucket (s : TokenBucketStrategy) (key : String) (now : ℚ) : Bucket × TokenBucketStrategy :=
  match s.buckets.get? key with
  | none =>
    let bucket := ⟨s.bucketSize, now⟩
    (bucket, { s with buckets := s.buckets.set key bucket })
  | some bucket =>
    let tokensToAdd := (now - bucket.lastRefill) * s.refillRatePerMs
    if tokensToAdd > 0 then
      let bucket := ⟨min s.bucketSize (bucket.tokens + tokensToAdd), now⟩
      (bucket, { s with buckets := s.buckets.set key bucket })
    else (bucket, s)

def check (s : TokenBucketStrategy) (key : String) (cost now : ℚ) : Bool × TokenBucketStrategy :=
  let (bucket, s) := s.bucket key now
  if bucket.tokens < cost then (false, s)
  else (true, { s with
    buckets := s.buckets.set key { bucket with tokens := bucket.tokens - cost } })

def remaining (s : TokenBucketStrategy) (key : String) (now : ℚ) : ℤ × TokenBucketStrategy :=
  let (bucket, s) := s.bucket key now
  (⌊bucket.tokens⌋, s)

def cleanup (s : TokenBucketStrategy) (now : ℚ) : TokenBucketStrategy :=
  { s with buckets := s.buckets.filter fun _ bucket =>
      ¬ now - bucket.lastRefill > s.windowMs * 2 }

def reset (s : TokenBucketStrategy) (key : String) : TokenBucketStrategy :=
  { s with buckets := s.buckets.erase key }

/-- The tokens of a bucket at an instant. -/
def level (size rate : ℚ) (bucket : Bucket) (now : ℚ) : ℚ :=
  min size (bucket.tokens + (now - bucket.lastRefill) * rate)

abbrev balance (s : TokenBucketStrategy) (key : String) (now : ℚ) : ℚ :=
  reading (level s.bucketSize s.refillRatePerMs) s.bucketSize s.buckets key now

/-- Buckets that refill, and are full again before the sweep takes them. -/
structure Kept (t : ℚ) (s : TokenBucketStrategy) : Prop where
  rate : 0 < s.refillRatePerMs
  size : 0 ≤ s.bucketSize
  full : s.bucketSize ≤ s.windowMs * 2 * s.refillRatePerMs
  tokens : ∀ key bucket, s.buckets.get? key = some bucket →
    0 ≤ bucket.tokens ∧ bucket.tokens ≤ s.bucketSize ∧ bucket.lastRefill ≤ t

variable {s s' : TokenBucketStrategy} {t now : ℚ} {key : String} {cost : ℚ}

theorem Kept.later (h : Kept t s) (hle : t ≤ now) : Kept now s :=
  ⟨h.rate, h.size, h.full, fun key bucket hget =>
    have ⟨hnonneg, hsize, hlast⟩ := h.tokens key bucket hget
    ⟨hnonneg, hsize, hlast.trans hle⟩⟩

theorem Kept.set (h : Kept t s) (key : String) {tokens : ℚ} (hnonneg : 0 ≤ tokens)
    (hsize : tokens ≤ s.bucketSize) : Kept t { s with buckets := s.buckets.set key ⟨tokens, t⟩ } := by
  refine ⟨h.rate, h.size, h.full, fun j bucket hget => ?_⟩
  dsimp only at hget ⊢
  rw [OrderedMap.get?_set] at hget
  split at hget
  · cases hget
    exact ⟨hnonneg, hsize, le_rfl⟩
  · exact h.tokens j bucket hget

theorem Kept.balance_mem (h : Kept t s) (hle : t ≤ now) (key : String) :
    0 ≤ s.balance key now ∧ s.balance key now ≤ s.bucketSize := by
  cases hget : s.buckets.get? key with
  | none => rw [balance, reading_of_get?_none hget]; exact ⟨h.size, le_rfl⟩
  | some bucket =>
    obtain ⟨hnonneg, hsize, hlast⟩ := h.tokens key bucket hget
    rw [balance, reading_of_get? hget, level]
    have hadd : 0 ≤ (now - bucket.lastRefill) * s.refillRatePerMs :=
      mul_nonneg (by linarith) h.rate.le
    exact ⟨le_min h.size (by linarith), min_le_left _ _⟩

/-- Refilling at an instant is not seen at a later one. -/
theorem level_level {size rate : ℚ} (hrate : 0 ≤ rate) {bucket : Bucket} {later : ℚ}
    (hlater : now ≤ later) :
    level size rate ⟨level size rate bucket now, now⟩ later = level size rate bucket later := by
  have hadd : 0 ≤ (later - now) * rate := mul_nonneg (by linarith) hrate
  have hsplit : bucket.tokens + (later - bucket.lastRefill) * rate =
      bucket.tokens + (now - bucket.lastRefill) * rate + (later - now) * rate := by ring
  rw [level, level, level, hsplit, ← min_add_add_right, ← min_assoc,
    min_eq_left (le_add_of_nonneg_right hadd)]

theorem level_full {size rate : ℚ} (hrate : 0 ≤ rate) {later : ℚ} (hlater : now ≤ later) :
    level size rate ⟨size, now⟩ later = size :=
  min_eq_left (le_add_of_nonneg_right (mul_nonneg (by linarith) hrate))

theorem Kept.agree_refilled (h : Kept t s) (key : String) (now : ℚ) :
    Agree (level s.bucketSize s.refillRatePerMs) s.bucketSize now
      (s.buckets.set key ⟨s.balance key now, now⟩) s.buckets := by
  refine agree_set fun later hlater => ?_
  cases hget : s.buckets.get? key with
  | none =>
    rw [balance, reading_of_get?_none hget, reading_of_get?_none hget]
    exact level_full h.rate.le hlater
  | some bucket =>
    rw [balance, reading_of_get? hget, reading_of_get? hget]
    exact level_level h.rate.le hlater

/-! ## What the operations read and write -/

theorem Kept.bucket (h : Kept t s) (hle : t ≤ now) (key : String) :
    ∃ buckets, s.bucket key now = (⟨s.balance key now, now⟩, { s with buckets }) ∧
      Kept now { s with buckets } ∧
      Agree (level s.bucketSize s.refillRatePerMs) s.bucketSize now buckets s.buckets := by
  obtain ⟨hnonneg, hsize⟩ := h.balance_mem hle key
  have hset := (h.later hle).set key hnonneg hsize
  have hagree := h.agree_refilled key now
  rw [TokenBucketStrategy.bucket]
  split
  · next hget =>
    rw [balance, reading_of_get?_none hget] at hset hagree ⊢
    exact ⟨_, rfl, hset, hagree⟩
  · next bucket hget =>
    obtain ⟨-, hsize, hlast⟩ := h.tokens key bucket hget
    rw [balance, reading_of_get? hget, level] at hset hagree ⊢
    dsimp only
    split
    · exact ⟨_, rfl, hset, hagree⟩
    · next hadd =>
      have hnow : bucket.lastRefill = now := by
        refine le_antisymm (hlast.trans hle) (not_lt.mp fun hlt => hadd ?_)
        exact mul_pos (sub_pos.mpr hlt) h.rate
      rw [hnow, sub_self, zero_mul, add_zero, min_eq_right hsize, ← hnow]
      exact ⟨s.buckets, rfl, h.later (hle.trans hnow.ge), .refl _⟩

theorem Kept.check (h : Kept t s) (hle : t ≤ now) (key : String) (hcost : 0 ≤ cost) :
    ∃ buckets, s.check key cost now = (decide (cost ≤ s.balance key now), { s with buckets }) ∧
      Kept now { s with buckets } ∧
      Agree (level s.bucketSize s.refillRatePerMs) s.bucketSize now buckets
        (if cost ≤ s.balance key now then s.buckets.set key ⟨s.balance key now - cost, now⟩
        else s.buckets) := by
  obtain ⟨-, hsize⟩ := h.balance_mem hle key
  obtain ⟨buckets, heq, hkept, hagree⟩ := h.bucket hle key
  rw [TokenBucketStrategy.check, heq]
  dsimp only
  split
  · next hover =>
    rw [decide_eq_false (not_le.mpr hover), if_neg (not_le.mpr hover)]
    exact ⟨_, rfl, hkept, hagree⟩
  · next hfits =>
    have hfits := not_lt.mp hfits
    rw [decide_eq_true hfits, if_pos hfits]
    refine ⟨_, rfl, hkept.set key (sub_nonneg.mpr hfits) ?_, hagree.set fun _ _ => rfl⟩
    exact (sub_le_self _ hcost).trans hsize

theorem Kept.remaining (h : Kept t s) (hle : t ≤ now) (key : String) :
    ∃ buckets, s.remaining key now = (⌊s.balance key now⌋, { s with buckets }) ∧
      Kept now { s with buckets } ∧
      Agree (level s.bucketSize s.refillRatePerMs) s.bucketSize now buckets s.buckets := by
  obtain ⟨buckets, heq, hkept, hagree⟩ := h.bucket hle key
  rw [TokenBucketStrategy.remaining, heq]
  exact ⟨buckets, rfl, hkept, hagree⟩

theorem bucket_snd (s : TokenBucketStrategy) (key : String) (now : ℚ) :
    ∃ buckets, (s.bucket key now).2 = { s with buckets } := by
  rw [TokenBucketStrategy.bucket]
  split
  · exact ⟨_, rfl⟩
  · dsimp only
    split
    · exact ⟨_, rfl⟩
    · exact ⟨s.buckets, rfl⟩

theorem Kept.cleanup (h : Kept t s) (hle : t ≤ now) : Kept now (s.cleanup now) :=
  ⟨h.rate, h.size, h.full, fun key bucket hget =>
    (h.later hle).tokens key bucket (OrderedMap.get?_filter.mp hget).1⟩

/-- A bucket that the sweep takes was full. -/
theorem Kept.agree_cleanup (h : Kept t s) (now : ℚ) :
    Agree (level s.bucketSize s.refillRatePerMs) s.bucketSize now (s.cleanup now).buckets
      s.buckets := by
  refine agree_filter fun key bucket hget hdropped later hlater => ?_
  obtain ⟨hnonneg, -, -⟩ := h.tokens key bucket hget
  have hidle : s.windowMs * 2 < now - bucket.lastRefill :=
    lt_sub_iff_add_lt.mpr (by simpa using hdropped)
  have hrefilled : s.bucketSize ≤ (later - bucket.lastRefill) * s.refillRatePerMs :=
    h.full.trans (mul_le_mul_of_nonneg_right (by linarith) h.rate.le)
  exact min_eq_left (by linarith)

theorem Kept.reset (h : Kept t s) (key : String) : Kept t (s.reset key) := by
  refine ⟨h.rate, h.size, h.full, fun j bucket hget => ?_⟩
  dsimp only [TokenBucketStrategy.reset] at hget
  rw [OrderedMap.get?_erase] at hget
  split at hget
  · cases hget
  · exact h.tokens j bucket hget

/-! ## Buckets that the sweep fills -/

/-- A configuration whose buckets are full again by the time the sweep takes them. -/
theorem kept_new {maxRequests windowMs burstLimit : ℚ} {burstable : Bool}
    (hsize : 0 < (new maxRequests windowMs burstable burstLimit).bucketSize)
    (hwindow : 0 < windowMs)
    (hfull : (new maxRequests windowMs burstable burstLimit).bucketSize ≤ 2 * maxRequests) (t : ℚ) :
    Kept t (new maxRequests windowMs burstable burstLimit) := by
  have hmax : 0 < maxRequests := by linarith
  refine ⟨div_pos hmax hwindow, hsize.le, hfull.trans (le_of_eq ?_), nofun⟩
  dsimp only [new]
  field_simp

/-- Otherwise there is an instant at which the sweep takes a bucket that is not full yet. -/
theorem sweep_too_early {maxRequests windowMs size : ℚ} (hmax : maxRequests ≠ 0)
    (hwindow : windowMs ≠ 0) (hsize : 0 < size) (h : ¬ (0 < windowMs ∧ size ≤ 2 * maxRequests)) :
    ∃ now, 0 ≤ now ∧ windowMs * 2 < now ∧ now * (maxRequests / windowMs) < size := by
  rcases lt_or_gt_of_ne hwindow with hneg | hpos
  · exact ⟨0, le_rfl, by linarith, by linarith⟩
  have hsmall : 2 * maxRequests < size := not_le.mp fun hle => h ⟨hpos, hle⟩
  rcases lt_or_gt_of_ne hmax with hmax | hmax
  · refine ⟨windowMs * 2 + 1, by linarith, by linarith, ?_⟩
    have hrate : maxRequests / windowMs < 0 := div_neg_of_neg_of_pos hmax hpos
    nlinarith
  · have hhalf : windowMs < size * windowMs / (2 * maxRequests) := by
      rw [lt_div_iff₀ (by linarith)]
      nlinarith
    have hrefill : (windowMs + size * windowMs / (2 * maxRequests)) * (maxRequests / windowMs) =
        maxRequests + size / 2 := by
      field_simp
    exact ⟨windowMs + size * windowMs / (2 * maxRequests), by linarith, by linarith, by
      rw [hrefill]
      linarith⟩

/-- A new bucket grants all it holds. -/
theorem check_new (hget : s.buckets.get? key = none) (now : ℚ) :
    ∃ buckets, s.check key s.bucketSize now = (true, { s with buckets }) ∧
      buckets.get? key = some ⟨0, now⟩ := by
  rw [TokenBucketStrategy.check, TokenBucketStrategy.bucket, hget]
  dsimp only
  rw [if_neg (lt_irrefl _), sub_self]
  exact ⟨_, rfl, OrderedMap.get?_set_self _ _ _⟩

/-- The sweep takes it once two windows have passed. -/
theorem cleanup_get? {bucket : Bucket} (hget : s.buckets.get? key = some bucket)
    (hidle : s.windowMs * 2 < now - bucket.lastRefill) :
    (s.cleanup now).buckets.get? key = none := by
  refine Option.eq_none_iff_forall_ne_some.mpr fun other hother => ?_
  obtain ⟨hget', hkeeps⟩ := OrderedMap.get?_filter.mp hother
  cases hget.symm.trans hget'
  exact of_decide_eq_true hkeeps hidle

/-- A drained bucket that is not full again does not. -/
theorem check_drained (hget : s.buckets.get? key = some ⟨0, t⟩) (hsize : 0 < s.bucketSize)
    (hrefill : (now - t) * s.refillRatePerMs < s.bucketSize) :
    (s.check key s.bucketSize now).1 = false := by
  rw [TokenBucketStrategy.check, TokenBucketStrategy.bucket, hget]
  dsimp only
  split
  · rw [zero_add, min_eq_right hrefill.le, if_pos hrefill]
  · rfl

/-! ## Stores that agree -/

/-- Two limiters that no later reading tells apart. -/
structure Same (t : ℚ) (s s' : TokenBucketStrategy) : Prop where
  bucketSize : s.bucketSize = s'.bucketSize
  refillRatePerMs : s.refillRatePerMs = s'.refillRatePerMs
  left : Kept t s
  right : Kept t s'
  agree : Agree (level s.bucketSize s.refillRatePerMs) s.bucketSize t s.buckets s'.buckets

theorem Same.balance (h : Same t s s') (hle : t ≤ now) (key : String) :
    s.balance key now = s'.balance key now :=
  (h.agree key now hle).trans (by
    rw [TokenBucketStrategy.balance, h.bucketSize, h.refillRatePerMs])

theorem Same.later (h : Same t s s') (hle : t ≤ now) : Same now s s' :=
  ⟨h.bucketSize, h.refillRatePerMs, h.left.later hle, h.right.later hle, h.agree.later hle⟩

theorem Same.check (h : Same t s s') (hle : t ≤ now) (key : String) (hcost : 0 ≤ cost) :
    (s.check key cost now).1 = (s'.check key cost now).1 ∧
      Same now (s.check key cost now).2 (s'.check key cost now).2 := by
  obtain ⟨buckets, heq, hkept, hagree⟩ := h.left.check hle key hcost
  obtain ⟨buckets', heq', hkept', hagree'⟩ := h.right.check hle key hcost
  rw [← h.bucketSize, ← h.refillRatePerMs, ← h.balance hle] at hagree'
  rw [heq, heq', h.balance hle]
  refine ⟨rfl, h.bucketSize, h.refillRatePerMs, hkept, hkept', hagree.trans (.trans ?_ hagree'.symm)⟩
  split
  · exact (h.agree.later hle).set fun _ _ => rfl
  · exact h.agree.later hle

theorem Same.remaining_left (h : Same t s s') (hle : t ≤ now) (key : String) :
    Same now (s.remaining key now).2 s' := by
  obtain ⟨buckets, heq, hkept, hagree⟩ := h.left.remaining hle key
  rw [heq]
  exact ⟨h.bucketSize, h.refillRatePerMs, hkept, h.right.later hle,
    hagree.trans (h.agree.later hle)⟩

theorem Same.cleanup_left (h : Same t s s') (hle : t ≤ now) : Same now (s.cleanup now) s' :=
  ⟨h.bucketSize, h.refillRatePerMs, h.left.cleanup hle, h.right.later hle,
    (h.left.agree_cleanup now).trans (h.agree.later hle)⟩

theorem Same.reset (h : Same t s s') (key : String) : Same t (s.reset key) (s'.reset key) :=
  ⟨h.bucketSize, h.refillRatePerMs, h.left.reset key, h.right.reset key, h.agree.erase key⟩

end TokenBucketStrategy
end RabbitMQ

import RabbitMQ.Resilience.RateLimiter.Doubles
import RabbitMQ.Resilience.RateLimiter.History

/-! Where the arithmetic of the code is exact. A step needs no rounding when the sums, the differences
and the products that it computes are numbers of the format; the limiter of rounded numbers then does
what the one of rationals does, in every run whose steps all are so. -/

namespace RabbitMQ
namespace Doubles

open Binary64 (IsDouble)

def Bucket.ofRat (b : RabbitMQ.Bucket) : Bucket := ⟨.finite b.tokens, .finite b.lastRefill⟩

def Counter.ofRat (c : RabbitMQ.Counter) : Counter := ⟨.finite c.count, .finite c.windowStart⟩

def LogEntry.ofRat (e : RabbitMQ.LogEntry) : LogEntry := ⟨.finite e.timestamp, .finite e.cost⟩

def WindowData.ofRat (w : RabbitMQ.WindowData) : WindowData :=
  ⟨w.entries.map .ofRat, .finite w.total⟩

/-! ## Token buckets -/

namespace TokenBucketStrategy

/-- The refill of a bucket needs no rounding. -/
def BucketExact (s : TokenBucketStrategy) (key : String) (now : Number) : Prop :=
  ∀ bucket ∈ s.buckets.get? key, now.DiffExact bucket.lastRefill ∧
    (now.sub bucket.lastRefill).ProdExact s.refillRatePerMs ∧
    ((Number.finite 0).lt ((now.sub bucket.lastRefill).mul s.refillRatePerMs) →
      bucket.tokens.SumExact ((now.sub bucket.lastRefill).mul s.refillRatePerMs))

def CheckExact (s : TokenBucketStrategy) (key : String) (cost now : Number) : Prop :=
  s.BucketExact key now ∧ (s.bucket key now).1.tokens.DiffExact cost

def CleanupExact (s : TokenBucketStrategy) (now : Number) : Prop :=
  s.windowMs.ProdExact (.finite 2) ∧
    ∀ key ∈ s.buckets.keys, ∀ bucket ∈ s.buckets.get? key, now.DiffExact bucket.lastRefill

def ofRat (s : RabbitMQ.TokenBucketStrategy) : TokenBucketStrategy where
  bucketSize := .finite s.bucketSize
  refillRatePerMs := .finite s.refillRatePerMs
  windowMs := .finite s.windowMs
  buckets := s.buckets.mapValues .ofRat

variable (s : RabbitMQ.TokenBucketStrategy) {key : String} {cost now : ℚ}

theorem get?_ofRat (key : String) :
    (ofRat s).buckets.get? key = (s.buckets.get? key).map .ofRat := OrderedMap.get?_mapValues ..

theorem ofRat_set (key : String) (b : RabbitMQ.Bucket) :
    ofRat { s with buckets := s.buckets.set key b } =
      { ofRat s with buckets := (ofRat s).buckets.set key (.ofRat b) } := by
  simp only [ofRat, OrderedMap.mapValues_set]

theorem bucket_ofRat (h : (ofRat s).BucketExact key (.finite now)) :
    (ofRat s).bucket key (.finite now) = (.ofRat (s.bucket key now).1, ofRat (s.bucket key now).2) := by
  rw [BucketExact, get?_ofRat] at h
  rw [bucket, RabbitMQ.TokenBucketStrategy.bucket, get?_ofRat]
  cases hget : s.buckets.get? key with
  | none =>
    dsimp only [Option.map_none]
    rw [ofRat_set]
    rfl
  | some b =>
    rw [hget] at h
    obtain ⟨hdiff, hprod, hsum⟩ := h (.ofRat b) rfl
    have hage : (Number.finite now).sub (Bucket.ofRat b).lastRefill = .finite (now - b.lastRefill) :=
      Number.sub_finite hdiff
    rw [hage] at hprod hsum
    have hadd : (Number.finite (now - b.lastRefill)).mul (ofRat s).refillRatePerMs =
        .finite ((now - b.lastRefill) * s.refillRatePerMs) := Number.mul_finite hprod
    rw [hadd, Number.lt_finite] at hsum
    dsimp only [Option.map_some]
    rw [hage, hadd, Number.lt_finite]
    by_cases hmore : 0 < (now - b.lastRefill) * s.refillRatePerMs
    · have htokens : (Bucket.ofRat b).tokens.add (.finite ((now - b.lastRefill) * s.refillRatePerMs)) =
          .finite (b.tokens + (now - b.lastRefill) * s.refillRatePerMs) :=
        Number.add_finite (hsum (decide_eq_true hmore))
      rw [if_pos (decide_eq_true hmore), if_pos (by exact hmore), htokens, ofRat_set,
        show (ofRat s).bucketSize = .finite s.bucketSize from rfl, Number.min_finite]
      rfl
    · rw [if_neg (by simpa using hmore), if_neg (by exact hmore)]

theorem check_ofRat (h : (ofRat s).CheckExact key (.finite cost) (.finite now)) :
    (ofRat s).check key (.finite cost) (.finite now) =
      ((s.check key cost now).1, ofRat (s.check key cost now).2) := by
  obtain ⟨hbucket, hdiff⟩ := h
  rw [bucket_ofRat s hbucket] at hdiff
  rw [check, bucket_ofRat s hbucket, RabbitMQ.TokenBucketStrategy.check]
  have hleft : (Bucket.ofRat (s.bucket key now).1).tokens.sub (.finite cost) =
      .finite ((s.bucket key now).1.tokens - cost) := Number.sub_finite hdiff
  dsimp only
  rw [hleft, show (Bucket.ofRat (s.bucket key now).1).tokens =
    .finite (s.bucket key now).1.tokens from rfl, Number.lt_finite]
  by_cases hless : (s.bucket key now).1.tokens < cost
  · rw [if_pos (decide_eq_true hless), if_pos hless]
  · rw [if_neg (by simpa using hless), if_neg hless]
    dsimp only
    rw [ofRat_set]
    rfl

theorem remaining_ofRat (h : (ofRat s).BucketExact key (.finite now)) :
    (ofRat s).remaining key (.finite now) =
      (.finite (s.remaining key now).1, ofRat (s.remaining key now).2) := by
  rw [remaining, bucket_ofRat s h]
  rfl

theorem cleanup_ofRat (h : (ofRat s).CleanupExact (.finite now)) :
    (ofRat s).cleanup (.finite now) = ofRat (s.cleanup now) := by
  obtain ⟨hprod, hdiff⟩ := h
  have hspan : (ofRat s).windowMs.mul (.finite 2) = .finite (s.windowMs * 2) :=
    Number.mul_finite hprod
  rw [cleanup, RabbitMQ.TokenBucketStrategy.cleanup, hspan]
  simp only [ofRat]
  rw [OrderedMap.mapValues_filter]
  intro key b hget
  have hget' : (ofRat s).buckets.get? key = some (.ofRat b) := by
    rw [get?_ofRat, hget, Option.map_some]
  have hage : (Number.finite now).sub (Bucket.ofRat b).lastRefill = .finite (now - b.lastRefill) :=
    Number.sub_finite (hdiff key (OrderedMap.mem_of_get? hget') _ hget')
  rw [hage, Number.lt_finite]
  exact decide_eq_decide.mpr (not_congr decide_eq_true_iff)

end TokenBucketStrategy

/-! ## Fixed windows -/

namespace FixedWindowStrategy

/-- The start of the window of an instant needs no rounding. -/
def StartExact : Number → Number → Prop
  | .finite windowMs, .finite now => windowStart (.finite windowMs) (.finite now) =
      .finite (RabbitMQ.FixedWindowStrategy.windowStart windowMs now)
  | _, _ => False

instance : (windowMs now : Number) → Decidable (StartExact windowMs now)
  | .finite windowMs, .finite now => inferInstanceAs (Decidable
      (windowStart (.finite windowMs) (.finite now) =
        .finite (RabbitMQ.FixedWindowStrategy.windowStart windowMs now)))
  | .finite _, .nan | .finite _, .negInf | .finite _, .posInf => .isFalse id
  | .nan, _ | .negInf, _ | .posInf, _ => .isFalse id

/-- The counter that `check` works on. -/
def counterFor (s : FixedWindowStrategy) (key : String) (now : Number) : Counter :=
  let start := windowStart s.windowMs now
  let counter := (s.counters.get? key).getD ⟨.finite 0, start⟩
  if counter.windowStart.eq start then counter else ⟨.finite 0, start⟩

theorem check_eq (s : FixedWindowStrategy) (key : String) (cost now : Number) :
    s.check key cost now =
      if s.maxRequests.lt ((s.counterFor key now).count.add cost) then
        (false, if (s.counters.get? key).isSome then
          { s with counters := s.counters.set key (s.counterFor key now) } else s)
      else
        (true, { s with
          counters := s.counters.set key
            ⟨(s.counterFor key now).count.add cost, (s.counterFor key now).windowStart⟩ }) := rfl

theorem counterFor_none {s : FixedWindowStrategy} {key : String} (hget : s.counters.get? key = none)
    (now : Number) : s.counterFor key now = ⟨.finite 0, windowStart s.windowMs now⟩ := by
  rw [counterFor, hget]
  exact ite_self _

theorem counterFor_some {s : FixedWindowStrategy} {key : String} {counter : Counter}
    (hget : s.counters.get? key = some counter) (now : Number) : s.counterFor key now =
      if counter.windowStart.eq (windowStart s.windowMs now) then counter
      else ⟨.finite 0, windowStart s.windowMs now⟩ := by
  rw [counterFor, hget]
  rfl

def CheckExact (s : FixedWindowStrategy) (key : String) (cost now : Number) : Prop :=
  StartExact s.windowMs now ∧ (s.counterFor key now).count.SumExact cost

def RemainingExact (s : FixedWindowStrategy) (key : String) (now : Number) : Prop :=
  StartExact s.windowMs now ∧ s.maxRequests.DiffExact (s.counterFor key now).count

def ofRat (s : RabbitMQ.FixedWindowStrategy) : FixedWindowStrategy where
  maxRequests := .finite s.maxRequests
  windowMs := .finite s.windowMs
  counters := s.counters.mapValues .ofRat

variable (s : RabbitMQ.FixedWindowStrategy) {key : String} {cost now : ℚ}

theorem get?_ofRat (key : String) :
    (ofRat s).counters.get? key = (s.counters.get? key).map .ofRat := OrderedMap.get?_mapValues ..

theorem ofRat_set (key : String) (c : RabbitMQ.Counter) :
    ofRat { s with counters := s.counters.set key c } =
      { ofRat s with counters := (ofRat s).counters.set key (.ofRat c) } := by
  simp only [ofRat, OrderedMap.mapValues_set]

theorem counterFor_ofRat (h : StartExact (.finite s.windowMs) (.finite now)) :
    (ofRat s).counterFor key (.finite now) = .ofRat
      ⟨s.used key now, RabbitMQ.FixedWindowStrategy.windowStart s.windowMs now⟩ := by
  have hstart : windowStart (ofRat s).windowMs (.finite now) =
      .finite (RabbitMQ.FixedWindowStrategy.windowStart s.windowMs now) := h
  rw [counterFor, hstart, get?_ofRat, ← RabbitMQ.FixedWindowStrategy.rolled_over]
  generalize RabbitMQ.FixedWindowStrategy.windowStart s.windowMs now = start
  have hget : ((s.counters.get? key).map Counter.ofRat).getD ⟨.finite 0, .finite start⟩ =
      .ofRat ((s.counters.get? key).getD ⟨0, start⟩) := by
    cases s.counters.get? key <;> rfl
  rw [hget]
  generalize (s.counters.get? key).getD ⟨0, start⟩ = counter
  rw [Counter.ofRat, Number.eq_finite]
  by_cases hsame : counter.windowStart = start
  · rw [if_pos (decide_eq_true hsame), if_neg (not_not.mpr hsame)]
    rfl
  · rw [if_neg (by simpa using hsame), if_pos hsame]
    rfl

theorem check_ofRat (h : (ofRat s).CheckExact key (.finite cost) (.finite now)) :
    (ofRat s).check key (.finite cost) (.finite now) =
      ((s.check key cost now).1, ofRat (s.check key cost now).2) := by
  obtain ⟨hstart, hsum⟩ := h
  have hcounter : (ofRat s).counterFor key (.finite now) = _ := counterFor_ofRat s hstart
  rw [hcounter] at hsum
  rw [check_eq, RabbitMQ.FixedWindowStrategy.check, RabbitMQ.FixedWindowStrategy.rolled_over,
    hcounter, Counter.ofRat]
  rw [Number.add_finite hsum, show (ofRat s).maxRequests = .finite s.maxRequests from rfl,
    Number.lt_finite, get?_ofRat, Option.isSome_map]
  by_cases hover : s.maxRequests < s.used key now + cost
  · rw [if_pos (decide_eq_true hover), if_pos hover]
    cases (s.counters.get? key).isSome with
    | true => exact congrArg (false, ·) (ofRat_set s key ⟨_, _⟩).symm
    | false => rfl
  · rw [if_neg (by simpa using hover), if_neg hover, ofRat_set]
    rfl

theorem remaining_ofRat (h : (ofRat s).RemainingExact key (.finite now)) :
    (ofRat s).remaining key (.finite now) = .finite (s.remaining key now) := by
  obtain ⟨hstart, hdiff⟩ := h
  rw [counterFor_ofRat s hstart] at hdiff
  have hstart' : windowStart (ofRat s).windowMs (.finite now) =
      .finite (RabbitMQ.FixedWindowStrategy.windowStart s.windowMs now) := hstart
  rw [remaining, RabbitMQ.FixedWindowStrategy.remaining, get?_ofRat, hstart']
  cases hget : s.counters.get? key with
  | none => rfl
  | some c =>
    dsimp only [Option.map_some]
    rw [Counter.ofRat, Number.eq_finite]
    by_cases hsame : c.windowStart = RabbitMQ.FixedWindowStrategy.windowStart s.windowMs now
    · rw [RabbitMQ.FixedWindowStrategy.used, Meter.reading_of_get? hget,
        RabbitMQ.FixedWindowStrategy.level_of_eq hsame] at hdiff
      rw [if_pos (decide_eq_true hsame), if_neg (not_not.mpr hsame)]
      exact Number.sub_finite hdiff
    · rw [if_neg (by simpa using hsame), if_pos hsame]
      rfl

theorem cleanup_ofRat (h : StartExact (ofRat s).windowMs (.finite now)) :
    (ofRat s).cleanup (.finite now) = ofRat (s.cleanup now) := by
  have hstart : windowStart (ofRat s).windowMs (.finite now) =
      .finite (RabbitMQ.FixedWindowStrategy.windowStart s.windowMs now) := h
  rw [cleanup, RabbitMQ.FixedWindowStrategy.cleanup, hstart]
  simp only [ofRat]
  rw [OrderedMap.mapValues_filter]
  exact fun _ _ _ => Number.eq_finite

end FixedWindowStrategy

/-! ## Window logs -/

namespace WindowLogStrategy

/-- The totals of the loop of `#evictExpired` need no rounding. -/
def EvictExact (windowMs now : Number) : List LogEntry → Number → Prop
  | [], _ => True
  | entry :: entries, total => windowMs.lt (now.sub entry.timestamp) →
      total.DiffExact entry.cost ∧ EvictExact windowMs now entries (total.sub entry.cost)

instance EvictExact.decidable (windowMs now : Number) (entries : List LogEntry) (total : Number) :
    Decidable (EvictExact windowMs now entries total) :=
  match entries with
  | [] => .isTrue trivial
  | entry :: entries =>
    have : Decidable (EvictExact windowMs now entries (total.sub entry.cost)) :=
      EvictExact.decidable _ _ _ _
    inferInstanceAs (Decidable (_ → _ ∧ _))

/-- The totals of the entries of a key that expire need no rounding. -/
def TotalExact (s : WindowLogStrategy) (key : String) (now : Number) : Prop :=
  EvictExact s.windowMs now (s.windowFor key).entries (s.windowFor key).total

/-- Neither do the ages of its entries. -/
def ExpiryExact (s : WindowLogStrategy) (key : String) (now : Number) : Prop :=
  (∀ entry ∈ (s.windowFor key).entries, now.DiffExact entry.timestamp) ∧ s.TotalExact key now

instance (s : WindowLogStrategy) (key : String) (now : Number) :
    Decidable (s.TotalExact key now) := EvictExact.decidable _ _ _ _

instance (s : WindowLogStrategy) (key : String) (now : Number) :
    Decidable (s.ExpiryExact key now) := inferInstanceAs (Decidable (_ ∧ _))

def OccupyExact (s : WindowLogStrategy) (key : String) (cost now : Number) : Prop :=
  s.ExpiryExact key now ∧ (s.evictExpired (s.windowFor key) now).total.SumExact cost

def RemainingExact (s : WindowLogStrategy) (key : String) (now : Number) : Prop :=
  s.ExpiryExact key now ∧ s.limit.DiffExact (s.evictExpired (s.windowFor key) now).total

def CleanupExact (s : WindowLogStrategy) (now : Number) : Prop :=
  ∀ key ∈ s.windows.keys, s.ExpiryExact key now

def ofRat (s : RabbitMQ.WindowLogStrategy) : WindowLogStrategy where
  limit := .finite s.limit
  windowMs := .finite s.windowMs
  windows := s.windows.mapValues .ofRat

variable (s : RabbitMQ.WindowLogStrategy) {key : String} {cost now : ℚ}

theorem get?_ofRat (key : String) :
    (ofRat s).windows.get? key = (s.windows.get? key).map .ofRat := OrderedMap.get?_mapValues ..

theorem ofRat_set (key : String) (w : RabbitMQ.WindowData) :
    ofRat { s with windows := s.windows.set key w } =
      { ofRat s with windows := (ofRat s).windows.set key (.ofRat w) } := by
  simp only [ofRat, OrderedMap.mapValues_set]

theorem evict_ofRat {windowMs now : ℚ} {entries : List RabbitMQ.LogEntry} {total : ℚ}
    (hages : ∀ entry ∈ entries, Binary64.IsDouble (now - entry.timestamp))
    (h : EvictExact (.finite windowMs) (.finite now) (entries.map .ofRat) (.finite total)) :
    evict (.finite windowMs) (.finite now) (entries.map .ofRat) (.finite total) =
      .ofRat (RabbitMQ.WindowLogStrategy.evict windowMs now entries total) := by
  induction entries generalizing total with
  | nil => rfl
  | cons entry entries ih =>
    have hage : (Number.finite now).sub (LogEntry.ofRat entry).timestamp =
        .finite (now - entry.timestamp) := Number.sub_finite (hages entry List.mem_cons_self)
    rw [List.map_cons, EvictExact, hage, Number.lt_finite] at h
    rw [List.map_cons, evict, RabbitMQ.WindowLogStrategy.evict, hage, Number.lt_finite]
    by_cases hexpired : windowMs < now - entry.timestamp
    · obtain ⟨hcost, hrest⟩ := h (decide_eq_true hexpired)
      have hleft : (Number.finite total).sub (LogEntry.ofRat entry).cost =
          .finite (total - entry.cost) := Number.sub_finite hcost
      rw [hleft] at hrest
      rw [if_pos (decide_eq_true hexpired), if_pos (by exact hexpired), hleft]
      exact ih (fun e he => hages e (List.mem_cons_of_mem _ he)) hrest
    · rw [if_neg (by simpa using hexpired), if_neg (by exact hexpired)]
      rfl

theorem windowFor_ofRat (key : String) : (ofRat s).windowFor key = .ofRat (s.windowFor key) := by
  rw [windowFor, RabbitMQ.WindowLogStrategy.windowFor, get?_ofRat]
  cases s.windows.get? key <;> rfl

theorem evictExpired_ofRat (h : (ofRat s).ExpiryExact key (.finite now)) :
    (ofRat s).evictExpired ((ofRat s).windowFor key) (.finite now) =
      .ofRat (s.evictExpired (s.windowFor key) now) := by
  obtain ⟨hages, htotals⟩ := h
  rw [windowFor_ofRat] at hages ⊢
  rw [TotalExact, windowFor_ofRat] at htotals
  exact evict_ofRat (fun entry hentry => hages _ (List.mem_map_of_mem hentry)) htotals

theorem occupy_ofRat (h : (ofRat s).OccupyExact key (.finite cost) (.finite now)) :
    (ofRat s).occupy key (.finite cost) (.finite now) =
      ((s.occupy key cost now).1.map .finite, ofRat (s.occupy key cost now).2) := by
  obtain ⟨hexpiry, hsum⟩ := h
  rw [evictExpired_ofRat s hexpiry] at hsum
  rw [occupy, RabbitMQ.WindowLogStrategy.occupy, evictExpired_ofRat s hexpiry]
  generalize s.evictExpired (s.windowFor key) now = w at hsum ⊢
  have htotal : (WindowData.ofRat w).total.add (.finite cost) = .finite (w.total + cost) :=
    Number.add_finite hsum
  rw [htotal, show (ofRat s).limit = .finite s.limit from rfl, Number.lt_finite]
  by_cases hover : s.limit < w.total + cost
  · rw [if_pos (decide_eq_true hover), if_pos hover, ofRat_set]
    rfl
  · rw [if_neg (by simpa using hover), if_neg hover, ofRat_set]
    dsimp only [WindowData.ofRat]
    rw [List.map_append]
    rfl

theorem windowFor_of_get? {s : RabbitMQ.WindowLogStrategy} {w : RabbitMQ.WindowData}
    (hget : s.windows.get? key = some w) : s.windowFor key = w := by
  rw [RabbitMQ.WindowLogStrategy.windowFor, hget, Option.getD_some]

theorem evicted_ofRat {s : RabbitMQ.WindowLogStrategy} {w : RabbitMQ.WindowData}
    (hget : s.windows.get? key = some w) (h : (ofRat s).ExpiryExact key (.finite now)) :
    (ofRat s).evictExpired (.ofRat w) (.finite now) = .ofRat (s.evictExpired w now) := by
  have hevicted := evictExpired_ofRat s h
  rwa [windowFor_ofRat, windowFor_of_get? hget] at hevicted

theorem remaining_ofRat (h : (ofRat s).RemainingExact key (.finite now)) :
    (ofRat s).remaining key (.finite now) =
      (.finite (s.remaining key now).1, ofRat (s.remaining key now).2) := by
  obtain ⟨hexpiry, hdiff⟩ := h
  rw [remaining, RabbitMQ.WindowLogStrategy.remaining, get?_ofRat]
  cases hget : s.windows.get? key with
  | none => rfl
  | some w =>
    have hleft : (Number.finite s.limit).sub (WindowData.ofRat (s.evictExpired w now)).total =
        .finite (s.limit - (s.evictExpired w now).total) := by
      rw [windowFor_ofRat, windowFor_of_get? hget, evicted_ofRat hget hexpiry] at hdiff
      exact Number.sub_finite hdiff
    dsimp only [Option.map_some]
    rw [evicted_ofRat hget hexpiry, ofRat_set]
    exact congrArg (·, _) hleft

theorem sweep_ofRat (h : key ∈ s.windows.keys → (ofRat s).ExpiryExact key (.finite now)) :
    sweep (.finite now) (ofRat s) key = ofRat (RabbitMQ.WindowLogStrategy.sweep now s key) := by
  rw [sweep, RabbitMQ.WindowLogStrategy.sweep, get?_ofRat]
  cases hget : s.windows.get? key with
  | none => rfl
  | some w =>
    dsimp only [Option.map_some]
    rw [evicted_ofRat hget (h (OrderedMap.mem_of_get? hget))]
    generalize s.evictExpired w now = w
    obtain ⟨entries, total⟩ := w
    cases entries with
    | nil =>
      rw [if_pos (by rfl), if_pos (by rfl)]
      simp only [ofRat, OrderedMap.mapValues_erase]
    | cons entry entries =>
      rw [if_neg (by simp [WindowData.ofRat]), if_neg (by simp)]
      simp only [ofRat, OrderedMap.mapValues_set]

/-- A turn of the sweep leaves the other keys alone. -/
theorem get?_sweep {key' : String} (hne : key' ≠ key) :
    (RabbitMQ.WindowLogStrategy.sweep now s key).windows.get? key' = s.windows.get? key' := by
  rw [RabbitMQ.WindowLogStrategy.sweep]
  split
  · rfl
  · dsimp only
    split
    · rw [OrderedMap.get?_erase, if_neg hne]
    · rw [OrderedMap.get?_set, if_neg hne]

theorem cleanup_ofRat (h : (ofRat s).CleanupExact (.finite now)) :
    (ofRat s).cleanup (.finite now) = ofRat (s.cleanup now) := by
  rw [CleanupExact, show (ofRat s).windows.keys = s.windows.keys from OrderedMap.keys_mapValues ..] at h
  rw [cleanup, RabbitMQ.WindowLogStrategy.cleanup,
    show (ofRat s).windows.keys = s.windows.keys from OrderedMap.keys_mapValues ..]
  have hnodup : s.windows.keys.Nodup := s.windows.keys_nodup
  generalize s.windows.keys = keys at h hnodup
  induction keys generalizing s with
  | nil => rfl
  | cons key keys ih =>
    obtain ⟨hnot, hnodup⟩ := List.nodup_cons.mp hnodup
    rw [List.foldl_cons, List.foldl_cons, sweep_ofRat s fun _ => h key List.mem_cons_self]
    refine ih _ (fun key' hkey' => ?_) hnodup
    have hexact := h key' (List.mem_cons_of_mem _ hkey')
    have hsame : (RabbitMQ.WindowLogStrategy.sweep now s key).windows.get? key' =
        s.windows.get? key' := get?_sweep s (ne_of_mem_of_not_mem hkey' hnot)
    have hwindow : (RabbitMQ.WindowLogStrategy.sweep now s key).windowMs = s.windowMs := by
      rw [RabbitMQ.WindowLogStrategy.sweep]
      split <;> rfl
    rw [ExpiryExact, TotalExact, windowFor_ofRat, RabbitMQ.WindowLogStrategy.windowFor] at hexact ⊢
    rwa [hsame, show (ofRat (RabbitMQ.WindowLogStrategy.sweep now s key)).windowMs =
      .finite s.windowMs from congrArg Number.finite hwindow]

/-! ### Runs -/

inductive Answer where
  /-- the occupancy before the entry joined, or `none` -/
  | occupancy (before : Option Number)
  | remaining (tokens : Number)
  deriving DecidableEq

def Answer.ofRat : RabbitMQ.WindowLogStrategy.Answer → Answer
  | .occupancy before => .occupancy (before.map .finite)
  | .remaining tokens => .remaining (.finite tokens)

def step (s : WindowLogStrategy) (call : RabbitMQ.WindowLogStrategy.Call) :
    WindowLogStrategy × Option Answer :=
  match call.operation with
  | .occupy key cost =>
    let (before, s) := s.occupy key (.finite cost) (.finite call.now)
    (s, some (.occupancy before))
  | .remaining key =>
    let (tokens, s) := s.remaining key (.finite call.now)
    (s, some (.remaining tokens))
  | .cleanup => (s.cleanup (.finite call.now), none)

/-- The step of a call needs no rounding. -/
def Exact (s : WindowLogStrategy) (call : RabbitMQ.WindowLogStrategy.Call) : Prop :=
  match call.operation with
  | .occupy key cost => s.OccupyExact key (.finite cost) (.finite call.now)
  | .remaining key => s.RemainingExact key (.finite call.now)
  | .cleanup => s.CleanupExact (.finite call.now)

instance (s : WindowLogStrategy) (call : RabbitMQ.WindowLogStrategy.Call) :
    Decidable (s.Exact call) := by
  obtain ⟨now, operation⟩ := call
  cases operation with
  | occupy key cost =>
    exact inferInstanceAs (Decidable (s.ExpiryExact _ _ ∧ Number.SumExact _ _))
  | remaining key => exact inferInstanceAs (Decidable (s.ExpiryExact _ _ ∧ Number.DiffExact _ _))
  | cleanup => exact inferInstanceAs (Decidable (∀ key ∈ s.windows.keys, s.ExpiryExact _ _))

theorem step_ofRat (s : RabbitMQ.WindowLogStrategy) (call : RabbitMQ.WindowLogStrategy.Call)
    (h : (ofRat s).Exact call) :
    (ofRat s).step call = (ofRat (s.step call).1, (s.step call).2.map .ofRat) := by
  obtain ⟨now, operation⟩ := call
  rw [step, RabbitMQ.WindowLogStrategy.step]
  cases operation with
  | occupy key cost =>
    dsimp only
    rw [occupy_ofRat s h]
    rfl
  | remaining key =>
    dsimp only
    rw [remaining_ofRat s h]
    rfl
  | cleanup => exact congrArg (·, none) (cleanup_ofRat s h)

end WindowLogStrategy

/-! ## Leaky buckets -/

namespace LeakyBucketStrategy

/-- The step of a check needs no rounding, nor does the wait of one that is admitted. -/
def CheckExact (s : LeakyBucketStrategy) (key : String) (cost now : Number) : Prop :=
  s.OccupyExact key cost now ∧
    ∀ occupancyBefore ∈ (s.occupy key cost now).1, occupancyBefore.ProdExact s.leakRateMs

/-- A timer takes as long as the wait. -/
def Timed : Number → Prop
  | .finite waitTime => 0 < waitTime → Timer.delay waitTime = waitTime
  | .nan | .negInf | .posInf => False

instance : DecidablePred Timed
  | .finite waitTime => inferInstanceAs (Decidable (0 < waitTime → Timer.delay waitTime = waitTime))
  | .nan | .negInf | .posInf => .isFalse id

/-- A check that is admitted sleeps as long as it should. -/
def WaitKept (s : LeakyBucketStrategy) (key : String) (cost now : Number) : Prop :=
  ∀ occupancyBefore ∈ (s.occupy key cost now).1, Timed (occupancyBefore.mul s.leakRateMs)

def ofRat (s : RabbitMQ.LeakyBucketStrategy) : LeakyBucketStrategy :=
  ⟨.ofRat s.toWindowLogStrategy, .finite s.leakRateMs⟩

variable (s : RabbitMQ.LeakyBucketStrategy) {key : String} {cost now : ℚ}

theorem occupy_ofRat (h : (ofRat s).CheckExact key (.finite cost) (.finite now)) :
    (ofRat s).occupy key (.finite cost) (.finite now) =
      ((s.occupy key cost now).1.map .finite, .ofRat (s.occupy key cost now).2) :=
  WindowLogStrategy.occupy_ofRat s.toWindowLogStrategy h.1

/-- The wait of a check that is admitted. -/
theorem wait_ofRat (h : (ofRat s).CheckExact key (.finite cost) (.finite now))
    {occupancyBefore : ℚ} (hadmitted : (s.occupy key cost now).1 = some occupancyBefore) :
    (Number.finite occupancyBefore).mul (ofRat s).leakRateMs =
      .finite (occupancyBefore * s.leakRateMs) := by
  refine Number.mul_finite (h.2 (.finite occupancyBefore) ?_)
  rw [occupy_ofRat s h, hadmitted]
  rfl

theorem check_ofRat (h : (ofRat s).CheckExact key (.finite cost) (.finite now)) :
    (ofRat s).check key (.finite cost) (.finite now) =
      ((s.check key cost now).1, .finite (s.check key cost now).2.1,
        ofRat (s.check key cost now).2.2) := by
  have hwait := @wait_ofRat s key cost now h
  rw [check, RabbitMQ.LeakyBucketStrategy.check, occupy_ofRat s h]
  generalize s.occupy key cost now = occupied at hwait ⊢
  obtain ⟨_ | occupancyBefore, log⟩ := occupied
  · rfl
  · dsimp only [Option.map_some]
    rw [hwait rfl, Number.lt_finite]
    by_cases hpos : 0 < occupancyBefore * s.leakRateMs
    · rw [if_pos (decide_eq_true hpos), if_pos hpos]
      rfl
    · rw [if_neg (by simpa using hpos), if_neg hpos]
      rfl

@[simp] theorem slept_zero : slept (.finite 0) = 0 := by
  rw [slept, if_neg (lt_irrefl 0)]

/-- The sleep of a check is as long as the wait. -/
theorem slept_check (h : (ofRat s).CheckExact key (.finite cost) (.finite now))
    (hkept : (ofRat s).WaitKept key (.finite cost) (.finite now)) :
    slept (.finite (s.check key cost now).2.1) = (s.check key cost now).2.1 := by
  rw [RabbitMQ.LeakyBucketStrategy.check]
  dsimp only
  split
  · exact slept_zero
  · next occupancyBefore hadmitted =>
    have htimed := hkept (.finite occupancyBefore) (by rw [occupy_ofRat s h, hadmitted]; rfl)
    rw [wait_ofRat s h hadmitted] at htimed
    split
    · next hpos => exact (if_pos hpos).trans (htimed hpos)
    · exact slept_zero

end LeakyBucketStrategy

/-! ## Strategies -/

namespace Limiter

open RabbitMQ.RateLimiter (Admission)

def CheckExact (limiter : Limiter) (key : String) (cost now : Number) : Prop :=
  match limiter with
  | .tokenBucket s => s.CheckExact key cost now
  | .leakyBucket s => s.CheckExact key cost now
  | .fixedWindow s => s.CheckExact key cost now
  | .slidingWindow s => s.OccupyExact key cost now

def RemainingExact (limiter : Limiter) (key : String) (now : Number) : Prop :=
  match limiter with
  | .tokenBucket s => s.BucketExact key now
  | .leakyBucket s => s.RemainingExact key now
  | .fixedWindow s => s.RemainingExact key now
  | .slidingWindow s => s.RemainingExact key now

def CleanupExact (limiter : Limiter) (now : Number) : Prop :=
  match limiter with
  | .tokenBucket s => s.CleanupExact now
  | .leakyBucket s => s.CleanupExact now
  | .fixedWindow s => FixedWindowStrategy.StartExact s.windowMs now
  | .slidingWindow s => s.CleanupExact now

/-- A sleep that the check asks for takes as long as it should. -/
def WaitKept (limiter : Limiter) (key : String) (cost now : Number) : Prop :=
  match limiter with
  | .leakyBucket s => s.WaitKept key cost now
  | .tokenBucket _ | .fixedWindow _ | .slidingWindow _ => True

/-- The step of a call needs no rounding, and its sleep takes as long as it should. -/
def Exact (limiter : Limiter) (call : RateLimiter.Limiter.Call) : Prop :=
  match call.operation with
  | .check key cost => limiter.CheckExact key (.finite cost) (.finite call.now) ∧
      limiter.WaitKept key (.finite cost) (.finite call.now)
  | .remaining key => limiter.RemainingExact key (.finite call.now)
  | .cleanup => limiter.CleanupExact (.finite call.now)

instance (limiter : Limiter) (key : String) (cost now : Number) :
    Decidable (limiter.CheckExact key cost now) := by
  cases limiter with
  | tokenBucket s => exact inferInstanceAs (Decidable ((∀ _ ∈ s.buckets.get? key, _ ∧ _) ∧ _))
  | leakyBucket s =>
    exact inferInstanceAs (Decidable ((s.ExpiryExact _ _ ∧ _) ∧ ∀ _ ∈ (s.occupy _ _ _).1, _))
  | fixedWindow s => exact inferInstanceAs (Decidable (FixedWindowStrategy.StartExact _ _ ∧ _))
  | slidingWindow s => exact inferInstanceAs (Decidable (s.ExpiryExact _ _ ∧ _))

instance (limiter : Limiter) (key : String) (now : Number) :
    Decidable (limiter.RemainingExact key now) := by
  cases limiter with
  | tokenBucket s => exact inferInstanceAs (Decidable (∀ _ ∈ s.buckets.get? key, _ ∧ _))
  | leakyBucket s | slidingWindow s => exact inferInstanceAs (Decidable (s.ExpiryExact _ _ ∧ _))
  | fixedWindow s => exact inferInstanceAs (Decidable (FixedWindowStrategy.StartExact _ _ ∧ _))

instance (limiter : Limiter) (now : Number) : Decidable (limiter.CleanupExact now) := by
  cases limiter with
  | tokenBucket s =>
    exact inferInstanceAs (Decidable (_ ∧ ∀ key ∈ s.buckets.keys, ∀ _ ∈ s.buckets.get? key, _))
  | leakyBucket s | slidingWindow s =>
    exact inferInstanceAs (Decidable (∀ key ∈ s.windows.keys, s.ExpiryExact _ _))
  | fixedWindow s => exact inferInstanceAs (Decidable (FixedWindowStrategy.StartExact _ _))

instance (limiter : Limiter) (key : String) (cost now : Number) :
    Decidable (limiter.WaitKept key cost now) := by
  cases limiter with
  | leakyBucket s => exact inferInstanceAs (Decidable (∀ _ ∈ (s.occupy key cost now).1, LeakyBucketStrategy.Timed _))
  | tokenBucket s | fixedWindow s | slidingWindow s => exact .isTrue trivial

instance (limiter : Limiter) (call : RabbitMQ.RateLimiter.Limiter.Call) :
    Decidable (limiter.Exact call) := by
  obtain ⟨now, operation⟩ := call
  cases operation with
  | check key cost => exact inferInstanceAs (Decidable (limiter.CheckExact _ _ _ ∧ _))
  | remaining key => exact inferInstanceAs (Decidable (limiter.RemainingExact _ _))
  | cleanup => exact inferInstanceAs (Decidable (limiter.CleanupExact _))

def ofRat : RabbitMQ.RateLimiter.Limiter → Limiter
  | .tokenBucket s => .tokenBucket (.ofRat s)
  | .leakyBucket s => .leakyBucket (.ofRat s)
  | .fixedWindow s => .fixedWindow (.ofRat s)
  | .slidingWindow s => .slidingWindow (.ofRat s.toWindowLogStrategy)

variable (limiter : RabbitMQ.RateLimiter.Limiter) {key : String} {cost now : ℚ}

theorem check_ofRat (h : (ofRat limiter).CheckExact key (.finite cost) (.finite now)) :
    (ofRat limiter).check key (.finite cost) (.finite now) =
      ((limiter.check key cost now).1.allowed, .finite (limiter.check key cost now).1.wait,
        ofRat (limiter.check key cost now).2) := by
  cases limiter with
  | tokenBucket s =>
    rw [ofRat, check, TokenBucketStrategy.check_ofRat s h]
    rfl
  | leakyBucket s =>
    rw [ofRat, check, LeakyBucketStrategy.check_ofRat s h]
    rfl
  | fixedWindow s =>
    rw [ofRat, check, FixedWindowStrategy.check_ofRat s h]
    rfl
  | slidingWindow s =>
    rw [ofRat, check, WindowLogStrategy.occupy_ofRat _ h]
    dsimp only
    rw [Option.isSome_map]
    rfl

theorem remaining_ofRat (h : (ofRat limiter).RemainingExact key (.finite now)) :
    (ofRat limiter).remaining key (.finite now) =
      (.finite (limiter.remaining key now).1, ofRat (limiter.remaining key now).2) := by
  cases limiter with
  | tokenBucket s =>
    rw [ofRat, remaining, TokenBucketStrategy.remaining_ofRat s h]
    rfl
  | leakyBucket s =>
    rw [ofRat, remaining, show (LeakyBucketStrategy.ofRat s).toWindowLogStrategy =
      .ofRat s.toWindowLogStrategy from rfl, WindowLogStrategy.remaining_ofRat _ h]
    rfl
  | fixedWindow s =>
    rw [ofRat, remaining, FixedWindowStrategy.remaining_ofRat s h]
    rfl
  | slidingWindow s =>
    rw [ofRat, remaining, WindowLogStrategy.remaining_ofRat _ h]
    rfl

theorem cleanup_ofRat (h : (ofRat limiter).CleanupExact (.finite now)) :
    (ofRat limiter).cleanup (.finite now) = ofRat (limiter.cleanup now) := by
  cases limiter with
  | tokenBucket s => exact congrArg Limiter.tokenBucket (TokenBucketStrategy.cleanup_ofRat s h)
  | leakyBucket s =>
    exact congrArg (fun log => Limiter.leakyBucket ⟨log, .finite s.leakRateMs⟩)
      (WindowLogStrategy.cleanup_ofRat s.toWindowLogStrategy h)
  | fixedWindow s => exact congrArg Limiter.fixedWindow (FixedWindowStrategy.cleanup_ofRat s h)
  | slidingWindow s =>
    exact congrArg Limiter.slidingWindow
      (WindowLogStrategy.cleanup_ofRat s.toWindowLogStrategy h)

theorem slept_check (h : (ofRat limiter).CheckExact key (.finite cost) (.finite now))
    (hkept : (ofRat limiter).WaitKept key (.finite cost) (.finite now)) :
    LeakyBucketStrategy.slept (.finite (limiter.check key cost now).1.wait) =
      (limiter.check key cost now).1.wait := by
  cases limiter with
  | leakyBucket s => exact LeakyBucketStrategy.slept_check s h hkept
  | tokenBucket s | fixedWindow s | slidingWindow s => exact LeakyBucketStrategy.slept_zero

/-- A step that needs no rounding is the step of the limiter of rationals. -/
theorem step_ofRat (call : RateLimiter.Limiter.Call) (h : (ofRat limiter).Exact call) :
    (ofRat limiter).step call = (ofRat (limiter.step call).1, (limiter.step call).2) := by
  obtain ⟨now, operation⟩ := call
  cases operation with
  | check key cost =>
    obtain ⟨hcheck, hkept⟩ := h
    rw [step, RabbitMQ.RateLimiter.Limiter.step]
    dsimp only
    rw [check_ofRat limiter hcheck]
    dsimp only
    rw [slept_check limiter hcheck hkept]
  | remaining key =>
    rw [step]
    dsimp only
    rw [remaining_ofRat limiter h]
    rfl
  | cleanup =>
    rw [step]
    dsimp only
    rw [cleanup_ofRat limiter h]
    rfl

/-- A run that needs no rounding is the run of the limiter of rationals. -/
theorem run_ofRat {calls : List RateLimiter.Limiter.Call}
    (h : Observation.Each step Exact (ofRat limiter) calls) :
    (ofRat limiter).admissions calls = limiter.admissions calls ∧
      (ofRat limiter).run calls = ofRat (limiter.run calls) := by
  have hstep : ∀ (limiter : RabbitMQ.RateLimiter.Limiter) call, (ofRat limiter).Exact (id call) →
      step (ofRat limiter) (id call) =
        (ofRat (limiter.step call).1, (limiter.step call).2.map id) := by
    intro limiter call hok
    rw [Option.map_id]
    exact step_ofRat limiter call hok
  have himage := Observation.Each.image hstep ((List.map_id calls).symm ▸ h)
  rw [List.map_id, List.map_id] at himage
  exact himage

end Limiter

end Doubles
end RabbitMQ

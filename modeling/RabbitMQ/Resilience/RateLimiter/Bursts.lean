import RabbitMQ.Resilience.RateLimiter.Admissions

/-! What a token bucket admits between two of its checks is bounded by what it held and what the
clock has refilled since. The clock may step backwards: a bucket is refilled up to the largest
reading it has seen, and no span of time is credited twice. -/

namespace RabbitMQ

open RateLimiter

/-- The largest of an instant and the clock readings for a key. -/
def RateLimiter.latest (key : String) (t : ℚ) (calls : List Limiter.Call) : ℚ :=
  calls.foldl (fun t call => if call.key? = some key then max t call.now else t) t

namespace TokenBucketStrategy

/-- Buckets that refill, and hold what a bucket can hold. -/
structure Within (s : TokenBucketStrategy) : Prop where
  rate : 0 < s.refillRatePerMs
  size : 0 ≤ s.bucketSize
  tokens : ∀ key bucket, s.buckets.get? key = some bucket →
    0 ≤ bucket.tokens ∧ bucket.tokens ≤ s.bucketSize

variable {s : TokenBucketStrategy} {key : String} {cost now : ℚ}

theorem Within.set (h : Within s) (key : String) {bucket : Bucket} (hnonneg : 0 ≤ bucket.tokens)
    (hsize : bucket.tokens ≤ s.bucketSize) :
    Within { s with buckets := s.buckets.set key bucket } := by
  refine ⟨h.rate, h.size, fun j b hget => ?_⟩
  dsimp only at hget ⊢
  rw [OrderedMap.get?_set] at hget
  split at hget
  · cases hget
    exact ⟨hnonneg, hsize⟩
  · exact h.tokens j b hget

/-- The bucket of a key, brought up to date, and what that does to the store. -/
structure Refills (s : TokenBucketStrategy) (key : String) (now : ℚ) (bucket : Bucket)
    (s' : TokenBucketStrategy) : Prop where
  within : Within s'
  stored : s'.buckets.get? key = some bucket
  others : ∀ j ≠ key, s'.buckets.get? j = s.buckets.get? j
  size : s'.bucketSize = s.bucketSize
  rate : s'.refillRatePerMs = s.refillRatePerMs
  new : s.buckets.get? key = none → bucket = ⟨s.bucketSize, now⟩
  old : ∀ b, s.buckets.get? key = some b → bucket.lastRefill = max now b.lastRefill ∧
    b.tokens ≤ bucket.tokens ∧ bucket.tokens =
      min s.bucketSize (b.tokens + (bucket.lastRefill - b.lastRefill) * s.refillRatePerMs)

theorem Within.bucket (h : Within s) (key : String) (now : ℚ) :
    Refills s key now (s.bucket key now).1 (s.bucket key now).2 := by
  have hothers : ∀ bucket, ∀ j ≠ key, (s.buckets.set key bucket).get? j = s.buckets.get? j := by
    intro bucket j hj
    rw [OrderedMap.get?_set, if_neg hj]
  rw [TokenBucketStrategy.bucket]
  split
  · next hget =>
    exact ⟨h.set key h.size le_rfl, OrderedMap.get?_set_self _ _ _, hothers _, rfl, rfl, fun _ => rfl,
      fun b hb => by cases hget.symm.trans hb⟩
  · next b hget =>
    obtain ⟨hnonneg, hsize⟩ := h.tokens key b hget
    have hnew : s.buckets.get? key ≠ none := fun hnone => by cases hget.symm.trans hnone
    dsimp only
    split
    · next hadd =>
      have hlater : b.lastRefill < now := sub_pos.mp ((mul_pos_iff_of_pos_right h.rate).mp hadd)
      have htokens : b.tokens ≤ min s.bucketSize
          (b.tokens + (now - b.lastRefill) * s.refillRatePerMs) :=
        le_min hsize (le_add_of_nonneg_right hadd.le)
      refine ⟨h.set key (hnonneg.trans htokens) (min_le_left _ _), OrderedMap.get?_set_self _ _ _,
        hothers _, rfl, rfl, fun hnone => absurd hnone hnew, fun b' hb' => ?_⟩
      cases hget.symm.trans hb'
      exact ⟨(max_eq_left hlater.le).symm, htokens, rfl⟩
    · next hadd =>
      have hearlier : now ≤ b.lastRefill := by
        by_contra hlater
        exact hadd (mul_pos (sub_pos.mpr (not_le.mp hlater)) h.rate)
      refine ⟨h, hget, fun _ _ => rfl, rfl, rfl, fun hnone => absurd hnone hnew, fun b' hb' => ?_⟩
      cases hget.symm.trans hb'
      refine ⟨(max_eq_right hearlier).symm, le_rfl, ?_⟩
      rw [sub_self, zero_mul, add_zero, min_eq_right hsize]

/-- What a call other than a sweep does to the bucket of its key, and to the others. -/
structure Spends (s : TokenBucketStrategy) (call : Limiter.Call) (key : String) (spent : ℚ)
    (s' : TokenBucketStrategy) : Prop where
  within : Within s'
  stored : ∃ bucket, s'.buckets.get? key = some bucket ∧ spent + bucket.tokens ≤ s.bucketSize ∧
    (s.buckets.get? key = none → bucket.lastRefill = call.now) ∧
    ∀ b, s.buckets.get? key = some b → bucket.lastRefill = max call.now b.lastRefill ∧
      spent + bucket.tokens ≤ b.tokens + (bucket.lastRefill - b.lastRefill) * s.refillRatePerMs
  others : ∀ j ≠ key, s'.buckets.get? j = s.buckets.get? j
  size : s'.bucketSize = s.bucketSize
  rate : s'.refillRatePerMs = s.refillRatePerMs

theorem Refills.spends {call : Limiter.Call} {bucket : Bucket} {s' : TokenBucketStrategy}
    (h : Refills s key call.now bucket s') : Spends s call key 0 s' where
  within := h.within
  stored := by
    obtain ⟨-, hsize⟩ := h.within.tokens key bucket h.stored
    rw [h.size] at hsize
    refine ⟨bucket, h.stored, by rwa [zero_add], fun hnone => by rw [h.new hnone], fun b hb => ?_⟩
    obtain ⟨hlast, -, hrefilled⟩ := h.old b hb
    rw [zero_add]
    exact ⟨hlast, hrefilled.trans_le (min_le_right _ _)⟩
  others := h.others
  size := h.size
  rate := h.rate

theorem Refills.spends_cost {call : Limiter.Call} {bucket : Bucket} {s' : TokenBucketStrategy}
    (h : Refills s key call.now bucket s') (hcost : 0 ≤ cost) (hfits : cost ≤ bucket.tokens) :
    Spends s call key cost { s' with
      buckets := s'.buckets.set key { bucket with tokens := bucket.tokens - cost } } where
  within := by
    obtain ⟨-, hsize⟩ := h.within.tokens key bucket h.stored
    exact h.within.set key (sub_nonneg.mpr hfits) ((sub_le_self _ hcost).trans hsize)
  stored := by
    obtain ⟨-, hsize⟩ := h.within.tokens key bucket h.stored
    rw [h.size] at hsize
    refine ⟨_, OrderedMap.get?_set_self _ _ _, ?_, fun hnone => by rw [h.new hnone], fun b hb => ?_⟩
    · dsimp only
      rwa [add_sub_cancel]
    · obtain ⟨hlast, -, hrefilled⟩ := h.old b hb
      refine ⟨hlast, ?_⟩
      dsimp only
      rw [add_sub_cancel]
      exact hrefilled.trans_le (min_le_right _ _)
  others := by
    intro j hj
    dsimp only
    rw [OrderedMap.get?_set, if_neg hj, h.others j hj]
  size := h.size
  rate := h.rate

/-- What a run without sweeps asks. -/
def Plain (call : Limiter.Call) : Prop := call.CostNonneg ∧ call.operation ≠ .cleanup

/-- A call that is not a sweep is about a key, and spends what it admits. -/
theorem Within.step (h : Within s) {call : Limiter.Call} (hplain : Plain call) :
    ∃ key s', call.key? = some key ∧ (Limiter.step (.tokenBucket s) call).1 = .tokenBucket s' ∧
      Spends s call key (total (Limiter.step (.tokenBucket s) call).2.toList fun _ => true) s' ∧
        ∀ a ∈ (Limiter.step (.tokenBucket s) call).2, a.key = key := by
  obtain ⟨now, operation⟩ := call
  cases operation with
  | check key cost =>
    have hcost : 0 ≤ cost := hplain.1 key cost rfl
    have hrefills := h.bucket key now
    refine ⟨key, (s.check key cost now).2, rfl, rfl, ?_⟩
    have hstep : (Limiter.step (.tokenBucket s) ⟨now, .check key cost⟩).2 =
        if (s.check key cost now).1 then some ⟨key, cost, now, 0⟩ else none := rfl
    rw [hstep, check]
    dsimp only
    split
    · exact ⟨hrefills.spends, by simp⟩
    · next hfits =>
      refine ⟨?_, fun a ha => by cases ha; rfl⟩
      have htotal : total [(⟨key, cost, now, 0⟩ : Admission)] (fun _ => true) = cost := by
        rw [total_singleton, if_pos rfl]
      exact htotal.symm ▸ hrefills.spends_cost hcost (not_lt.mp hfits)
  | remaining key => exact ⟨key, _, rfl, rfl, (h.bucket key now).spends, by rintro _ ⟨⟩⟩
  | cleanup => exact absurd rfl hplain.2

/-- The largest of an instant and the last refill of a key. -/
def clock (s : TokenBucketStrategy) (key : String) (t : ℚ) : ℚ :=
  match s.buckets.get? key with
  | none => t
  | some bucket => max t bucket.lastRefill

theorem clock_of_get? {bucket : Bucket} (hget : s.buckets.get? key = some bucket) (t : ℚ) :
    s.clock key t = max t bucket.lastRefill := by
  rw [clock, hget]

/-- What a run without sweeps does to a key. -/
structure Runs (s : TokenBucketStrategy) (key : String) (calls : List Limiter.Call)
    (s' : TokenBucketStrategy) : Prop where
  within : Within s'
  size : s'.bucketSize = s.bucketSize
  rate : s'.refillRatePerMs = s.refillRatePerMs
  clock : ∀ t, s'.clock key t = latest key (s.clock key t) calls
  spent : ∀ b, s.buckets.get? key = some b → ∃ b', s'.buckets.get? key = some b' ∧
    total ((Limiter.tokenBucket s).admissions calls) (·.key = key) + b'.tokens ≤
      b.tokens + (b'.lastRefill - b.lastRefill) * s.refillRatePerMs

theorem Spends.clock {call : Limiter.Call} {spent : ℚ} {s' : TokenBucketStrategy}
    (h : Spends s call key spent s') (t : ℚ) :
    s'.clock key t = max (s.clock key t) call.now := by
  obtain ⟨bucket, hstored, -, hnew, hold⟩ := h.stored
  rw [clock_of_get? hstored]
  cases hget : s.buckets.get? key with
  | none => rw [hnew hget, TokenBucketStrategy.clock, hget]
  | some b => rw [(hold b hget).1, clock_of_get? hget, max_comm call.now, max_assoc]

/-- Spending adds up, along a refill that goes on. -/
theorem spent_trans {spent spent' rate : ℚ} {b b' b'' : Bucket}
    (h : spent + b'.tokens ≤ b.tokens + (b'.lastRefill - b.lastRefill) * rate)
    (h' : spent' + b''.tokens ≤ b'.tokens + (b''.lastRefill - b'.lastRefill) * rate) :
    spent + spent' + b''.tokens ≤ b.tokens + (b''.lastRefill - b.lastRefill) * rate := by
  calc spent + spent' + b''.tokens
      = spent + (spent' + b''.tokens) := by ring
    _ ≤ spent + (b'.tokens + (b''.lastRefill - b'.lastRefill) * rate) := by linarith
    _ = spent + b'.tokens + (b''.lastRefill - b'.lastRefill) * rate := by ring
    _ ≤ b.tokens + (b'.lastRefill - b.lastRefill) * rate +
        (b''.lastRefill - b'.lastRefill) * rate := by linarith
    _ = b.tokens + (b''.lastRefill - b.lastRefill) * rate := by ring

theorem Within.run (h : Within s) (key : String) {calls : List Limiter.Call}
    (hplain : ∀ call ∈ calls, Plain call) :
    ∃ s', (Limiter.tokenBucket s).run calls = .tokenBucket s' ∧ Runs s key calls s' := by
  induction calls generalizing s with
  | nil =>
    refine ⟨s, rfl, h, rfl, rfl, fun _ => rfl, fun b hget => ⟨b, hget, ?_⟩⟩
    rw [Limiter.admissions_nil, total_nil, zero_add, sub_self, zero_mul, add_zero]
  | cons call calls ih =>
    obtain ⟨key', s₁, hkey', hstep, hspends, hadmits⟩ := h.step (hplain call List.mem_cons_self)
    obtain ⟨s', hrun, hruns⟩ := ih hspends.within fun c hc => hplain c (List.mem_cons_of_mem _ hc)
    have htotal : ∀ p : Admission → Bool, total ((Limiter.tokenBucket s).admissions (call :: calls)) p =
        total (Limiter.step (.tokenBucket s) call).2.toList p +
          total ((Limiter.tokenBucket s₁).admissions calls) p := by
      intro p
      rw [Limiter.admissions_cons, total_append, hstep]
    have hlatest : ∀ t, latest key t (call :: calls) =
        latest key (if key' = key then max t call.now else t) calls := by
      intro t
      rw [latest, List.foldl_cons, hkey', latest]
      simp only [Option.some_inj]
    refine ⟨s', ?_, hruns.within, hruns.size.trans hspends.size, hruns.rate.trans hspends.rate,
      fun t => ?_, fun b hget => ?_⟩
    · rw [Limiter.run_cons, hstep]
      exact hrun
    · rw [hruns.clock, hlatest]
      by_cases heq : key' = key
      · subst heq
        rw [if_pos rfl, hspends.clock]
      · have hsame : s₁.clock key t = s.clock key t := by
          rw [TokenBucketStrategy.clock, hspends.others key (Ne.symm heq), TokenBucketStrategy.clock]
        rw [if_neg heq, hsame]
    · rw [htotal]
      by_cases heq : key' = key
      · subst heq
        obtain ⟨b₁, hb₁, -, -, hold⟩ := hspends.stored
        obtain ⟨b', hb', hspent⟩ := hruns.spent b₁ hb₁
        have hfirst : total (Limiter.step (.tokenBucket s) call).2.toList (·.key = key') =
            total (Limiter.step (.tokenBucket s) call).2.toList fun _ => true :=
          total_congr fun a ha => decide_eq_true (hadmits a (Option.mem_toList.mp ha))
        rw [hspends.rate] at hspent
        rw [hfirst]
        exact ⟨b', hb', spent_trans (hold b hget).2 hspent⟩
      · obtain ⟨b', hb', hspent⟩ := hruns.spent b ((hspends.others key (Ne.symm heq)).trans hget)
        have hnothing : total (Limiter.step (.tokenBucket s) call).2.toList (·.key = key) =
            total (Limiter.step (.tokenBucket s) call).2.toList fun _ => false :=
          total_congr fun a ha => decide_eq_false fun hkey =>
            heq ((hadmits a (Option.mem_toList.mp ha)).symm.trans hkey)
        rw [hspends.rate] at hspent
        rw [hnothing, total_false, zero_add]
        exact ⟨b', hb', hspent⟩

/-! ## The bound -/

/-- From the first of some calls on, a key is admitted no more than a full bucket and what the clock
refills after the largest reading up to that call. -/
def Bounded (s : TokenBucketStrategy) : Prop :=
  ∀ (key : String) (earlier : List Limiter.Call) (first : Limiter.Call) (rest : List Limiter.Call),
    (∀ call ∈ earlier ++ first :: rest, Plain call) → first.key? = some key →
      total (((Limiter.tokenBucket s).run earlier).admissions (first :: rest)) (·.key = key) ≤
        s.bucketSize + s.refillRatePerMs *
          (latest key first.now (earlier ++ rest) - latest key first.now earlier)

/-- A bucket holds what a bucket can hold, and no clock reading takes anything from it. -/
def Balanced (s : TokenBucketStrategy) : Prop :=
  ∀ (calls : List Limiter.Call) (s' : TokenBucketStrategy), (∀ call ∈ calls, Plain call) →
    (Limiter.tokenBucket s).run calls = .tokenBucket s' →
      ∀ key bucket, s'.buckets.get? key = some bucket →
        0 ≤ bucket.tokens ∧ bucket.tokens ≤ s.bucketSize ∧
          ∀ now, bucket.tokens ≤ (s'.bucket key now).1.tokens

theorem latest_append (key : String) (t : ℚ) (calls calls' : List Limiter.Call) :
    latest key t (calls ++ calls') = latest key (latest key t calls) calls' := List.foldl_append

theorem Within.bounded (h : Within s) (hempty : s.buckets = .empty) : Bounded s := by
  intro key earlier first rest hplain hfirst
  have hplain₁ : ∀ call ∈ earlier, Plain call := fun c hc =>
    hplain c (List.mem_append_left _ hc)
  have hplain₂ : ∀ call ∈ rest, Plain call := fun c hc =>
    hplain c (List.mem_append_right _ (List.mem_cons_of_mem _ hc))
  -- the state before the first of the calls, after it, and at the end
  obtain ⟨s₁, hrun₁, hruns₁⟩ := h.run key hplain₁
  obtain ⟨key', s₂, hkey', hstep, hspends, hadmits⟩ :=
    hruns₁.within.step (hplain first (List.mem_append_right _ List.mem_cons_self))
  cases hfirst.symm.trans hkey'
  obtain ⟨s₃, -, hruns₂⟩ := hspends.within.run key hplain₂
  obtain ⟨b₂, hb₂, hsize, hnew, hold⟩ := hspends.stored
  obtain ⟨b₃, hb₃, hspent⟩ := hruns₂.spent b₂ hb₂
  have hstart : ∀ t, s.clock key t = t := fun t => by rw [clock, hempty, OrderedMap.get?_empty]
  have hseen : s₁.clock key first.now = latest key first.now earlier := by
    rw [hruns₁.clock, hstart]
  have hlast₂ : b₂.lastRefill = latest key first.now earlier := by
    rw [← hseen, clock]
    cases hget : s₁.buckets.get? key with
    | none => exact hnew hget
    | some b => exact (hold b hget).1
  have hlast₃ : b₃.lastRefill ≤ latest key first.now (earlier ++ rest) := by
    have hclock := hruns₂.clock b₂.lastRefill
    rw [clock_of_get? hb₃, clock_of_get? hb₂, max_self, hlast₂, ← latest_append] at hclock
    exact (le_max_right _ _).trans_eq hclock
  obtain ⟨hnonneg, -⟩ := hruns₂.within.tokens key b₃ hb₃
  have hrefill : (b₃.lastRefill - b₂.lastRefill) * s.refillRatePerMs ≤ s.refillRatePerMs *
      (latest key first.now (earlier ++ rest) - latest key first.now earlier) := by
    rw [mul_comm, hlast₂]
    exact mul_le_mul_of_nonneg_left (sub_le_sub_right hlast₃ _) h.rate.le
  have hfirst : total (Limiter.step (.tokenBucket s₁) first).2.toList (·.key = key) =
      total (Limiter.step (.tokenBucket s₁) first).2.toList fun _ => true :=
    total_congr fun a ha => decide_eq_true (hadmits a (Option.mem_toList.mp ha))
  rw [hspends.rate, hruns₁.rate] at hspent
  rw [hruns₁.size] at hsize
  rw [hrun₁, Limiter.admissions_cons, total_append, hfirst, hstep]
  linarith

theorem Within.balanced (h : Within s) : Balanced s := by
  intro calls s' hplain hrun key bucket hget
  obtain ⟨s₁, hrun₁, hruns⟩ := h.run key hplain
  cases hrun₁.symm.trans hrun
  obtain ⟨hnonneg, hsize⟩ := hruns.within.tokens key bucket hget
  rw [hruns.size] at hsize
  refine ⟨hnonneg, hsize, fun now => ?_⟩
  exact ((hruns.within.bucket key now).old bucket hget).2.1

/-- A bucket that is read for the first time is full. -/
theorem bucket_new (hempty : s.buckets = .empty) (key : String) (now : ℚ) : s.bucket key now =
    (⟨s.bucketSize, now⟩, { s with buckets := s.buckets.set key ⟨s.bucketSize, now⟩ }) := by
  rw [TokenBucketStrategy.bucket, hempty, OrderedMap.get?_empty]

/-- A negative rate takes from the bound, not from the bucket. -/
theorem not_bounded (hempty : s.buckets = .empty) (hsize : 0 < s.bucketSize)
    (hrate : s.refillRatePerMs < 0) : ¬ Bounded s := by
  intro h
  have hbound := h "" [] ⟨0, .remaining ""⟩ [⟨1, .check "" s.bucketSize⟩] ?_ rfl
  · have hread : Limiter.step (.tokenBucket s) ⟨0, .remaining ""⟩ =
        (.tokenBucket (s.bucket "" 0).2, none) := rfl
    have hfull : ((s.bucket "" 0).2.check "" s.bucketSize 1).1 = true := by
      have hadd : ¬ (1 - 0 : ℚ) * s.refillRatePerMs > 0 := by linarith
      rw [bucket_new hempty, check, TokenBucketStrategy.bucket, OrderedMap.get?_set_self]
      dsimp only
      rw [if_neg hadd]
      dsimp only
      rw [if_neg (lt_irrefl _)]
    have hchecked : (Limiter.step (.tokenBucket (s.bucket "" 0).2)
        ⟨1, .check "" s.bucketSize⟩).2 = some ⟨"", s.bucketSize, 1, 0⟩ := by
      have hstep : (Limiter.step (.tokenBucket (s.bucket "" 0).2) ⟨1, .check "" s.bucketSize⟩).2 =
          if ((s.bucket "" 0).2.check "" s.bucketSize 1).1 then
            some ⟨"", s.bucketSize, 1, 0⟩ else none := rfl
      rw [hstep, hfull, if_pos rfl]
    have hlatest : latest "" 0 [⟨1, .check "" s.bucketSize⟩] = 1 := by
      rw [latest, List.foldl_cons]
      exact max_eq_right zero_le_one
    rw [List.nil_append, hlatest, Limiter.run_nil, Limiter.admissions_cons, hread,
      Limiter.admissions_cons, hchecked, Limiter.admissions_nil] at hbound
    have htotal : total [(⟨"", s.bucketSize, 1, 0⟩ : Admission)] (fun a => decide (a.key = "")) =
        s.bucketSize := by
      rw [total_singleton]
      rfl
    have hzero : latest "" 0 [] = 0 := rfl
    change total [_] _ ≤ _ at hbound
    rw [htotal, hzero] at hbound
    linarith
  · intro call hcall
    simp only [List.nil_append, List.mem_cons, List.not_mem_nil, or_false] at hcall
    rcases hcall with rfl | rfl
    · exact ⟨by rintro _ _ ⟨⟩, by rintro ⟨⟩⟩
    · exact ⟨fun _ _ heq => by cases heq; exact hsize.le, by rintro ⟨⟩⟩

theorem bucketSize_nonneg (hempty : s.buckets = .empty) (h : Balanced s) : 0 ≤ s.bucketSize := by
  have hplain : ∀ call ∈ [(⟨0, .remaining ""⟩ : Limiter.Call)], Plain call := by
    intro call hcall
    cases List.mem_singleton.mp hcall
    exact ⟨nofun, nofun⟩
  have hget : (s.bucket "" 0).2.buckets.get? "" = some ⟨s.bucketSize, 0⟩ := by
    rw [bucket_new hempty]
    exact OrderedMap.get?_set_self _ _ _
  exact (h _ (s.bucket "" 0).2 hplain rfl "" _ hget).1

end TokenBucketStrategy

namespace RateLimiter

open TokenBucketStrategy

/-- The bounds of a token bucket hold of the configurations with buckets of a positive size that
refill. -/
theorem bounded_iff {options : Options} {r : RateLimiter} {s : TokenBucketStrategy}
    (hnew : new options = .ok r) (hlimiter : r.limiter = .tokenBucket s) :
    Bounded s ∧ Balanced s ↔ 0 < s.bucketSize ∧ 0 < s.refillRatePerMs := by
  obtain ⟨hwindow, hmax, -, hcases⟩ := new_cases hnew
  have hbucket : s.buckets = .empty ∧ s.bucketSize ≠ 0 ∧ s.refillRatePerMs ≠ 0 := by
    rcases hcases with ⟨burstLimit, hburst, -, heq⟩ | ⟨-, ⟨_, heq⟩ | heq | heq⟩
    · cases hlimiter.symm.trans heq
      refine ⟨rfl, ?_, div_ne_zero hmax hwindow⟩
      dsimp only [TokenBucketStrategy.new]
      split
      · exact hburst
      · exact hmax
    all_goals cases hlimiter.symm.trans heq
  obtain ⟨hempty, hsize, hrate⟩ := hbucket
  constructor
  · rintro ⟨hbounded, hbalanced⟩
    have hpos : 0 < s.bucketSize := lt_of_le_of_ne (bucketSize_nonneg hempty hbalanced) hsize.symm
    refine ⟨hpos, lt_of_le_of_ne (not_lt.mp fun hneg => ?_) hrate.symm⟩
    exact not_bounded hempty hpos hneg hbounded
  · rintro ⟨hpos, hrefills⟩
    have hwithin : Within s := by
      refine ⟨hrefills, hpos.le, fun key bucket hget => ?_⟩
      rw [hempty, OrderedMap.get?_empty] at hget
      cases hget
    exact ⟨hwithin.bounded hempty, hwithin.balanced⟩

/-- The default configuration. -/
theorem bounded_default : ∃ r s, new {} = .ok r ∧ r.limiter = .tokenBucket s ∧
    Bounded s ∧ Balanced s := by
  refine ⟨_, _, rfl, rfl, ?_⟩
  exact (bounded_iff (show new ({} : Options) = _ from rfl) rfl).mpr (by decide +kernel)

/-- A negative limit is taken as it is, and is the balance of every key. -/
theorem unbalanced_negative : ∃ r s, new { maxRequests := some (-1) } = .ok r ∧
    r.limiter = .tokenBucket s ∧ ¬ Balanced s := by
  refine ⟨_, _, rfl, rfl, fun h => ?_⟩
  have hsize := bucketSize_nonneg rfl h
  revert hsize
  decide +kernel

end RateLimiter
end RabbitMQ

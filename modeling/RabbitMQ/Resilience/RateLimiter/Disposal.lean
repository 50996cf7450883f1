import RabbitMQ.Resilience.RateLimiter.Retention

/-! `disconnect` disposes of the limiter, and no later `connect` makes another. A limiter that was
disposed of goes on as a new one that is never swept: it holds every key that it has admitted. -/

namespace RabbitMQ

open RateLimiter Observation

namespace TokenBucketStrategy

variable {s : TokenBucketStrategy} {key k : String} {now cost : ℚ}

theorem mem_bucket (h : k = key ∨ k ∈ s.buckets) (now : ℚ) : k ∈ (s.bucket key now).2.buckets := by
  unfold TokenBucketStrategy.bucket
  split
  · exact OrderedMap.mem_set.mpr h
  · next bucket hget =>
    dsimp only
    split
    · exact OrderedMap.mem_set.mpr h
    · rcases h with rfl | h
      · exact OrderedMap.mem_of_get? hget
      · exact h

theorem mem_check (h : k = key ∨ k ∈ s.buckets) : k ∈ (s.check key cost now).2.buckets := by
  have hbucket := mem_bucket h now
  unfold TokenBucketStrategy.check
  dsimp only
  split
  · exact hbucket
  · exact OrderedMap.mem_set.mpr (.inr hbucket)

end TokenBucketStrategy

namespace FixedWindowStrategy

variable {s : FixedWindowStrategy} {key k : String} {now cost : ℚ}

/-- A refused check of a new key leaves nothing. -/
theorem mem_check (h : k = key ∧ (s.check key cost now).1 = true ∨ k ∈ s.counters) :
    k ∈ (s.check key cost now).2.counters := by
  rw [FixedWindowStrategy.check, rolled_over] at h ⊢
  split
  · next hover =>
    rw [if_pos hover] at h
    have hmem : k ∈ s.counters := h.resolve_left fun hadmits => Bool.false_ne_true hadmits.2
    dsimp only
    split
    · exact OrderedMap.mem_set.mpr (.inr hmem)
    · exact hmem
  · exact OrderedMap.mem_set.mpr (h.imp_left And.left)

end FixedWindowStrategy

namespace WindowLogStrategy

variable {s : WindowLogStrategy} {key k : String} {now : ℚ}

theorem mem_occupy (h : k = key ∨ k ∈ s.windows) (cost now : ℚ) :
    k ∈ (s.occupy key cost now).2.windows := by
  rw [WindowLogStrategy.occupy]
  split
  · exact OrderedMap.mem_set.mpr h
  · exact OrderedMap.mem_set.mpr h

theorem mem_remaining (h : k ∈ s.windows) : k ∈ (s.remaining key now).2.windows := by
  rw [WindowLogStrategy.remaining]
  split
  · exact h
  · exact OrderedMap.mem_set.mpr (.inr h)

end WindowLogStrategy

namespace RateLimiter

variable {l : Limiter} {r : RateLimiter} {key k : String} {now cost : ℚ}
  {calls : List RateLimiter.Call}

theorem Limiter.keys_check (key : String) (cost now : ℚ)
    (h : k = key ∧ (l.check key cost now).1.allowed = true ∨ k ∈ l.keys) :
    k ∈ (l.check key cost now).2.keys := by
  cases l with
  | tokenBucket s => exact TokenBucketStrategy.mem_check (h.imp_left And.left)
  | leakyBucket s =>
    have hoccupy := WindowLogStrategy.mem_occupy (h.imp_left And.left) cost now
    dsimp only [Limiter.check, LeakyBucketStrategy.check]
    split <;> exact hoccupy
  | fixedWindow s => exact FixedWindowStrategy.mem_check h
  | slidingWindow s => exact WindowLogStrategy.mem_occupy (h.imp_left And.left) cost now

theorem Limiter.keys_remaining (h : k ∈ l.keys) : k ∈ (l.remaining key now).2.keys := by
  cases l with
  | tokenBucket s => exact TokenBucketStrategy.mem_bucket (.inr h) now
  | leakyBucket s => exact WindowLogStrategy.mem_remaining h
  | fixedWindow s => exact h
  | slidingWindow s => exact WindowLogStrategy.mem_remaining h

theorem Limiter.keys_reset (h : k ∈ l.keys) (hne : k ≠ key) : k ∈ (l.reset key).keys := by
  cases l with
  | tokenBucket s => exact OrderedMap.mem_erase.mpr ⟨hne, h⟩
  | leakyBucket s => exact OrderedMap.mem_erase.mpr ⟨hne, h⟩
  | fixedWindow s => exact OrderedMap.mem_erase.mpr ⟨hne, h⟩
  | slidingWindow s => exact OrderedMap.mem_erase.mpr ⟨hne, h⟩

theorem keys_checkRateLimit (h : k ∈ r.limiter.keys) :
    k ∈ (r.checkRateLimit key cost now).2.limiter.keys := by
  have hcheck := Limiter.keys_check key cost now (.inr h)
  unfold RateLimiter.checkRateLimit
  split
  · exact h
  · split
    · exact hcheck
    · split
      · exact hcheck
      · exact h

/-- Only a sweep and a reset forget a key. -/
theorem keys_step {call : Call} (h : k ∈ r.limiter.keys) (hcleanup : call.operation ≠ .cleanup)
    (hreset : call.operation ≠ .reset k) : k ∈ (r.step call).1.limiter.keys := by
  obtain ⟨now, operation⟩ := call
  cases operation with
  | checkRateLimit key cost => exact keys_checkRateLimit h
  | blockKey key duration => exact h
  | reset key =>
    refine Limiter.keys_reset h fun heq => ?_
    exact hreset (congrArg Operation.reset heq.symm)
  | getStatus key | getRemainingTokens key => exact Limiter.keys_remaining h
  | cleanup => exact absurd rfl hcleanup

theorem keys_after (h : k ∈ r.limiter.keys) (hcleanup : ∀ call ∈ calls, call.operation ≠ .cleanup)
    (hreset : ∀ call ∈ calls, call.operation ≠ .reset k) :
    k ∈ (after RateLimiter.step r calls).limiter.keys := by
  induction calls generalizing r with
  | nil => exact h
  | cons call calls ih =>
    have hstep := keys_step h (hcleanup call List.mem_cons_self) (hreset call List.mem_cons_self)
    exact ih hstep (fun c hc => hcleanup c (List.mem_cons_of_mem _ hc))
      fun c hc => hreset c (List.mem_cons_of_mem _ hc)

/-- A check that is admitted leaves its key. -/
theorem admitted_mem {verdict : Verdict}
    (h : (r.checkRateLimit key cost now).1 = .ok verdict) (hallowed : verdict.allowed = true) :
    key ∈ (r.checkRateLimit key cost now).2.limiter.keys := by
  unfold RateLimiter.checkRateLimit at h ⊢
  split at h
  · cases h
  · next hfits =>
    rw [if_neg hfits]
    split at h
    · cases h
      exact Limiter.keys_check key cost now (.inl ⟨rfl, hallowed⟩)
    · split at h
      · next hover =>
        cases h
        rw [if_pos hover]
        exact Limiter.keys_check key cost now (.inl ⟨rfl, hallowed⟩)
      · cases h
        exact absurd hallowed Bool.false_ne_true

/-- Some call of a run is admitted for the key, and the key is not reset later. -/
def Admits (r : RateLimiter) (calls : List Call) (key : String) : Prop :=
  ∃ earlier now cost later verdict, calls = earlier ++ ⟨now, .checkRateLimit key cost⟩ :: later ∧
    ((after RateLimiter.step r earlier).step ⟨now, .checkRateLimit key cost⟩).2 =
      some (.ok verdict) ∧ verdict.allowed = true ∧
    ∀ call ∈ later, call.operation ≠ .reset key

theorem Admits.mem (h : Admits r calls key) (hcleanup : ∀ call ∈ calls, call.operation ≠ .cleanup) :
    key ∈ (after RateLimiter.step r calls).limiter.keys := by
  obtain ⟨earlier, now, cost, later, verdict, rfl, hverdict, hallowed, hreset⟩ := h
  rw [after, List.foldl_append, List.foldl_cons]
  have hadmitted := admitted_mem (Option.some.inj hverdict) hallowed
  refine keys_after hadmitted (fun call hcall => ?_) hreset
  exact hcleanup call (List.mem_append_right _ (List.mem_cons_of_mem _ hcall))

namespace Housekept

variable {s s₀ s' : Housekept} {event : Event}

theorem made_step (hs : s.step event = some s') :
    s'.rateLimiter.dispose = s.rateLimiter.dispose := by
  obtain ⟨call, -, -, rfl⟩ | ⟨call, due, -, -, -, rfl⟩ | ⟨now, -, rfl⟩ := step_cases hs
  · exact dispose_step _ call
  · exact dispose_step _ call
  · exact dispose_dispose _

theorem made_run {events : List Event} (hrun : s.run events = some s') :
    s'.rateLimiter.dispose = s.rateLimiter.dispose := by
  induction events generalizing s with
  | nil => cases hrun; rfl
  | cons e events ih =>
    obtain ⟨s₁, hs, hrun⟩ := run_cons hrun
    exact (ih hrun).trans (made_step hs)

/-- Once its interval is cleared, a limiter is never swept. -/
theorem run_unswept (hdue : s.due = none) (hrun : s.run (calls.map .call) = some s') :
    s'.due = none ∧ s'.rateLimiter = after RateLimiter.step s.rateLimiter calls ∧
      ∀ call ∈ calls, call.operation ≠ .cleanup := by
  induction calls generalizing s with
  | nil =>
    cases hrun
    exact ⟨hdue, rfl, fun call hcall => absurd hcall List.not_mem_nil⟩
  | cons call calls ih =>
    obtain ⟨s₁, hs, hrun⟩ := run_cons hrun
    obtain ⟨_, ⟨⟩, hcall, rfl⟩ | ⟨_, due, -, -, hsome, -⟩ | ⟨now, ⟨⟩, -⟩ := step_cases hs
    · obtain ⟨hnone, heq, hrest⟩ :=
        ih (s := { s with rateLimiter := (s.rateLimiter.step call).1 }) hdue hrun
      refine ⟨hnone, heq, fun c hc => ?_⟩
      rcases List.mem_cons.mp hc with rfl | hc
      · exact hcall
      · exact hrest c hc
    · rw [hdue] at hsome
      cases hsome

theorem dispose_new {options : Options} {start : ℚ} (hnew : new options start = .ok s₀) :
    s₀.rateLimiter.dispose = s₀.rateLimiter := by
  obtain ⟨r, hr, rfl⟩ := Housekept.new_cases hnew
  obtain ⟨-, -, hblocked, hlimiter⟩ := RateLimiter.new_cases hr
  have hcleared : r.limiter.clear = r.limiter := by
    rcases hlimiter with ⟨burstLimit, -, -, heq⟩ | ⟨-, ⟨queueLimit, heq⟩ | heq | heq⟩
    all_goals
      rw [heq]
      rfl
  dsimp only
  rw [dispose, hcleared, ← hblocked]

/-- A limiter that was disposed of, whatever it was asked before, goes on as it was made, is never
swept again, and holds every key that it has admitted since. -/
theorem disposed_forgets_nothing {options : Options} {start : ℚ}
    (hnew : new options start = .ok s₀) {before : List Event} {calls : List Call} {now : ℚ}
    (hrun : s₀.run (before ++ .dispose now :: calls.map .call) = some s) :
    s.due = none ∧ s.rateLimiter = after RateLimiter.step s₀.rateLimiter calls ∧
      ∀ key, Admits s₀.rateLimiter calls key → key ∈ s.rateLimiter.limiter.keys := by
  rw [Housekept.run, List.foldlM_append] at hrun
  obtain ⟨s₁, hbefore, hrun⟩ := Option.bind_eq_some_iff.mp hrun
  obtain ⟨s₂, hs, hrun⟩ := run_cons hrun
  cases hs
  obtain ⟨hnone, heq, hcleanup⟩ := run_unswept rfl hrun
  have hmade : s₁.rateLimiter.dispose = s₀.rateLimiter :=
    (made_run hbefore).trans (dispose_new hnew)
  dsimp only at heq
  rw [hmade] at heq
  refine ⟨hnone, heq, fun key hadmits => ?_⟩
  rw [heq]
  exact hadmits.mem hcleanup

/-- A check before the limiter is disposed of. -/
def used : List Event := [.call ⟨0, .checkRateLimit "a" 1⟩]

/-- A check and a read after it. -/
def reused : List Call := [⟨2, .checkRateLimit "b" 1⟩, ⟨1000000, .getStatus "c"⟩]

theorem disposed_forgets_nothing_reused : ∃ s,
    defaultLimiter.run (used ++ .dispose 1 :: reused.map .call) = some s ∧ s.due = none ∧
      "b" ∈ s.rateLimiter.limiter.keys := by
  have hrun : (defaultLimiter.run (used ++ .dispose 1 :: reused.map .call)).isSome = true := by
    decide +kernel
  obtain ⟨s, hs⟩ := Option.isSome_iff_exists.mp hrun
  obtain ⟨hdue, -, hkeys⟩ := disposed_forgets_nothing new_default hs
  have hadmits : Admits defaultLimiter.rateLimiter reused "b" :=
    ⟨[], 2, 1, [⟨1000000, .getStatus "c"⟩], { allowed := true }, rfl, by decide +kernel⟩
  exact ⟨s, hs, hdue, hkeys "b" hadmits⟩

end Housekept

end RateLimiter

end RabbitMQ

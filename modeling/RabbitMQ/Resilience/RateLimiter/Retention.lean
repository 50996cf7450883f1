import RabbitMQ.Resilience.RateLimiter.Housekeeping
import RabbitMQ.Resilience.RateLimiter.Stamps

/-! The sweep keeps the memory of a limiter flat: what a limiter holds is charged to the calls that
put it there, and those are the calls of the last two windows before the sweep, and later ones. -/

namespace RabbitMQ

namespace RateLimiter

namespace Limiter

def Stamped (calls : List RateLimiter.Call) : Limiter → Prop
  | .tokenBucket s => s.Stamped calls
  | .leakyBucket s => s.toWindowLogStrategy.Stamped calls
  | .fixedWindow s => s.Stamped calls
  | .slidingWindow s => s.toWindowLogStrategy.Stamped calls

variable {l : Limiter} {calls calls' : List RateLimiter.Call} {key : String} {cost now : ℚ}

theorem Stamped.mono (h : l.Stamped calls) (hsub : calls.Sublist calls') : l.Stamped calls' := by
  cases l with
  | tokenBucket s => exact fun key bucket hget => (h key bucket hget).mono hsub.subset
  | leakyBucket s => exact WindowLogStrategy.Stamped.mono h hsub
  | fixedWindow s => exact fun key counter hget => (h key counter hget).mono hsub.subset
  | slidingWindow s => exact WindowLogStrategy.Stamped.mono h hsub

/-- A call that is made now. -/
theorem askedAt_concat (calls : List RateLimiter.Call) {operation : RateLimiter.Operation}
    (hasks : operation.asks? = some key) :
    AskedAt (calls ++ [⟨now, operation⟩]) key (· = now) :=
  ⟨_, List.mem_append_right _ List.mem_cons_self, hasks, rfl⟩

theorem Stamped.check (h : l.Stamped calls) (key : String) (cost now : ℚ) :
    (l.check key cost now).2.Stamped (calls ++ [⟨now, .checkRateLimit key cost⟩]) := by
  have hlater := h.mono (List.sublist_append_left calls [⟨now, .checkRateLimit key cost⟩])
  have hasked : AskedAt (calls ++ [⟨now, .checkRateLimit key cost⟩]) key (· = now) :=
    askedAt_concat calls rfl
  cases l with
  | tokenBucket s => exact TokenBucketStrategy.Stamped.check hlater hasked cost
  | leakyBucket s =>
    have hoccupy := WindowLogStrategy.Stamped.occupy h key cost now
    dsimp only [Limiter.check, LeakyBucketStrategy.check, Stamped]
    split <;> exact hoccupy
  | fixedWindow s => exact FixedWindowStrategy.Stamped.check hlater hasked cost
  | slidingWindow s => exact WindowLogStrategy.Stamped.occupy h key cost now

theorem Stamped.remaining (h : l.Stamped calls) (hasked : AskedAt calls key (· = now)) :
    (l.remaining key now).2.Stamped calls := by
  cases l with
  | tokenBucket s => exact (TokenBucketStrategy.Stamped.bucket h hasked).2
  | leakyBucket s => exact WindowLogStrategy.Stamped.remaining h key now
  | fixedWindow s => exact h
  | slidingWindow s => exact WindowLogStrategy.Stamped.remaining h key now

theorem Stamped.reset (h : l.Stamped calls) (key : String) : (l.reset key).Stamped calls := by
  cases l with
  | tokenBucket s => exact TokenBucketStrategy.Stamped.reset h key
  | leakyBucket s => exact WindowLogStrategy.Stamped.erase h key
  | fixedWindow s => exact FixedWindowStrategy.Stamped.reset h key
  | slidingWindow s => exact WindowLogStrategy.Stamped.erase h key

theorem Stamped.cleanup (h : l.Stamped calls) (hwindow : l.windowMs ≠ 0)
    (hsorted : calls.Pairwise fun call call' => call.now ≤ call'.now) (now : ℚ) :
    (l.cleanup now).Stamped (calls.filter (RateLimiter.Call.recent l.windowMs now)) := by
  cases l with
  | tokenBucket s => exact TokenBucketStrategy.Stamped.cleanup h now
  | leakyBucket s => exact WindowLogStrategy.Stamped.cleanup h hsorted now
  | fixedWindow s => exact FixedWindowStrategy.Stamped.cleanup h hwindow now
  | slidingWindow s => exact WindowLogStrategy.Stamped.cleanup h hsorted now

/-- The calls that asked about a key are at least as many as the keys. -/
theorem Stamped.asked (h : l.Stamped calls) (hkey : key ∈ l.keys) :
    AskedAt calls key fun _ => True := by
  cases l with
  | tokenBucket s =>
    obtain ⟨bucket, hget⟩ := OrderedMap.mem_iff.mp hkey
    exact (h key bucket hget).imp fun _ _ => trivial
  | leakyBucket s =>
    obtain ⟨windowData, hget⟩ := OrderedMap.mem_iff.mp hkey
    exact (h key windowData hget).1
  | fixedWindow s =>
    obtain ⟨counter, hget⟩ := OrderedMap.mem_iff.mp hkey
    exact (h key counter hget).imp fun _ _ => trivial
  | slidingWindow s =>
    obtain ⟨windowData, hget⟩ := OrderedMap.mem_iff.mp hkey
    exact (h key windowData hget).1

end Limiter

/-- What a limiter holds was put there by calls. -/
structure Stamped (r : RateLimiter) (calls : List Call) : Prop where
  limiter : r.limiter.Stamped calls
  blocked : ∀ key blockedUntil, r.blocked.get? key = some blockedUntil → ∃ call ∈ calls,
    ∃ duration, call.operation = .blockKey key duration ∧
      blockedUntil = call.now + duration.getD r.windowMs

variable {r : RateLimiter} {calls calls' : List RateLimiter.Call} {key : String} {now : ℚ}

theorem Stamped.mono (h : r.Stamped calls) (hsub : calls.Sublist calls') : r.Stamped calls' := by
  refine ⟨h.limiter.mono hsub, fun key blockedUntil hget => ?_⟩
  obtain ⟨call, hcall, hblocks⟩ := h.blocked key blockedUntil hget
  exact ⟨call, hsub.subset hcall, hblocks⟩

theorem Stamped.limit (h : r.Stamped calls) {limiter : Limiter} (hlimiter : limiter.Stamped calls) :
    Stamped { r with limiter } calls := ⟨hlimiter, h.blocked⟩

theorem Stamped.unblock (h : r.Stamped calls) (key : String) :
    Stamped { r with blocked := r.blocked.erase key } calls :=
  ⟨h.limiter, OrderedMap.forall_erase h.blocked key⟩

theorem Stamped.checkRateLimit (h : r.Stamped calls) (key : String) (cost now : ℚ) :
    (r.checkRateLimit key cost now).2.Stamped (calls ++ [⟨now, .checkRateLimit key cost⟩]) := by
  have hlater := h.mono (List.sublist_append_left calls [⟨now, .checkRateLimit key cost⟩])
  have hcheck := h.limiter.check key cost now
  unfold RateLimiter.checkRateLimit
  split
  · exact hlater
  · split
    · exact hlater.limit hcheck
    · split
      · exact (hlater.limit hcheck).unblock key
      · exact hlater

/-- A call that does not sweep. -/
theorem Stamped.step (h : r.Stamped calls) {call : Call} (hcall : call.operation ≠ .cleanup) :
    (r.step call).1.Stamped (calls ++ [call]) := by
  have hlater := h.mono (List.sublist_append_left calls [call])
  obtain ⟨now, operation⟩ := call
  cases operation with
  | checkRateLimit key cost => exact h.checkRateLimit key cost now
  | blockKey key duration =>
    refine ⟨hlater.limiter, OrderedMap.forall_set hlater.blocked ?_⟩
    exact ⟨_, List.mem_append_right _ List.mem_cons_self, duration, rfl, rfl⟩
  | reset key => exact (hlater.limit (hlater.limiter.reset key)).unblock key
  | getStatus key | getRemainingTokens key =>
    exact hlater.limit (hlater.limiter.remaining (Limiter.askedAt_concat calls rfl))
  | cleanup => exact absurd rfl hcall

/-- A sweep leaves what the calls put there that it remembers. -/
theorem Stamped.cleanup (h : r.Stamped calls) (hsame : r.limiter.windowMs = r.windowMs)
    (hwindow : r.windowMs ≠ 0)
    (hsorted : calls.Pairwise fun call call' => call.now ≤ call'.now) (now : ℚ) :
    (r.cleanup now).Stamped (calls.filter (Call.recent r.windowMs now)) := by
  constructor
  case limiter =>
    have hswept := h.limiter.cleanup (hsame ▸ hwindow) hsorted now
    rw [hsame] at hswept
    exact hswept
  case blocked =>
    intro key blockedUntil hget
    obtain ⟨hget, hkept⟩ := OrderedMap.get?_filter.mp hget
    obtain ⟨call, hcall, duration, hblocks, hequal⟩ := h.blocked key blockedUntil hget
    have hlive : now < blockedUntil := by simpa using hkept
    refine ⟨call, List.mem_filter.mpr ⟨hcall, ?_⟩, duration, hblocks, hequal⟩
    rw [Call.recent, hblocks]
    exact decide_eq_true (.inl (hequal ▸ hlive))

/-! ## How much a limiter holds -/

/-- The keys that the calls asked the strategy about, as often as they did. -/
def askedKeys (calls : List Call) : List String := calls.filterMap fun call => call.operation.asks?

/-- The keys that the calls blocked, as often as they did. -/
def blockedKeys (calls : List Call) : List String :=
  calls.filterMap fun call => call.operation.blocks?

/-- The entries of a log are checks of its key. -/
theorem length_entries_le {key : String} {entries : List LogEntry}
    (hentries : entries.Sublist (calls.filterMap (Call.entry? key))) :
    entries.length ≤ (askedKeys calls).count key := by
  refine hentries.length_le.trans ?_
  rw [askedKeys, List.length_filterMap_eq_countP, List.count_filterMap]
  refine List.countP_mono_left fun call _ hentry => ?_
  obtain ⟨e, he⟩ := Option.isSome_iff_exists.mp hentry
  rw [WindowLogStrategy.entry?_eq_some he]
  exact beq_self_eq_true _

theorem Limiter.Stamped.logged_le {l : Limiter} (h : l.Stamped calls) :
    l.logged ≤ (askedKeys calls).length := by
  cases l with
  | tokenBucket | fixedWindow => exact Nat.zero_le _
  | leakyBucket s =>
    exact s.windows.sum_entries_le fun k w hget => length_entries_le (h k w hget).2
  | slidingWindow s =>
    exact s.windows.sum_entries_le fun k w hget => length_entries_le (h k w hget).2

theorem Limiter.Stamped.keys_le {l : Limiter} (h : l.Stamped calls) :
    l.keys.length ≤ (askedKeys calls).length := by
  have hasked : ∀ key ∈ l.keys, ∃ call ∈ calls, call.operation.asks? = some key := by
    intro key hkey
    obtain ⟨call, hcall, hasks, -⟩ := h.asked hkey
    exact ⟨call, hcall, hasks⟩
  cases l with
  | tokenBucket s => exact s.buckets.length_keys_le hasked
  | leakyBucket s => exact s.windows.length_keys_le hasked
  | fixedWindow s => exact s.counters.length_keys_le hasked
  | slidingWindow s => exact s.windows.length_keys_le hasked

/-- A call about a key has left at most two records, and one that blocks a key has left one. -/
theorem Stamped.records_le (h : r.Stamped calls) :
    r.records ≤ 2 * (askedKeys calls).length + (blockedKeys calls).length := by
  have hblocked : r.blocked.keys.length ≤ (blockedKeys calls).length := by
    refine r.blocked.length_keys_le fun key hkey => ?_
    obtain ⟨blockedUntil, hget⟩ := OrderedMap.mem_iff.mp hkey
    obtain ⟨call, hcall, duration, hblocks, -⟩ := h.blocked key blockedUntil hget
    exact ⟨call, hcall, hblocks ▸ rfl⟩
  have hkeys := h.limiter.keys_le
  have hlogged := h.limiter.logged_le
  rw [records]
  omega

/-! ## Runs -/

/-- A sweep remembers what comes after it. -/
theorem Call.recent_of_le {windowMs swept : ℚ} {call : Call} (hle : swept ≤ call.now) :
    call.recent windowMs swept = true := by
  have hnonneg := abs_nonneg windowMs
  obtain ⟨now, operation⟩ := call
  dsimp only at hle
  cases operation with
  | blockKey key duration => exact decide_eq_true (.inr hle)
  | checkRateLimit | reset | getStatus | getRemainingTokens | cleanup =>
    exact decide_eq_true (by linarith)

theorem windowMs_new {options : Options} (hnew : new options = .ok r) :
    r.limiter.windowMs = r.windowMs ∧ r.windowMs ≠ 0 := by
  obtain ⟨hwindow, -, -, hlimiter⟩ := new_cases hnew
  refine ⟨?_, hwindow⟩
  rcases hlimiter with ⟨burstLimit, -, -, heq⟩ | ⟨-, ⟨queueLimit, heq⟩ | heq | heq⟩
  all_goals
    rw [heq]
    rfl

namespace Housekept

def Event.call? : Event → Option Call
  | .call c => some c
  | .dispose _ => none

/-- The limiter was made as `r₀`, and holds at `t` what the last sweep remembers of the calls so
far. -/
structure Holds (r₀ : RateLimiter) (t : ℚ) (s : Housekept) (calls : List Call) : Prop where
  made : s.rateLimiter.dispose = r₀.dispose
  past : ∀ call ∈ calls, call.now ≤ t
  sorted : calls.Pairwise fun call call' => call.now ≤ call'.now
  stamped : ∀ due, s.due = some due → due - r₀.cleanupIntervalMs ≤ t ∧
    s.rateLimiter.Stamped (calls.filter (Call.recent r₀.windowMs (due - r₀.cleanupIntervalMs)))

variable {r₀ : RateLimiter} {t due : ℚ} {s s₀ s' : Housekept} {event : Event}

theorem Holds.append (h : Holds r₀ t s calls) {call : Call} (hle : t ≤ call.now) :
    (∀ c ∈ calls ++ [call], c.now ≤ call.now) ∧
      (calls ++ [call]).Pairwise fun call call' => call.now ≤ call'.now := by
  have hbefore : ∀ c ∈ calls, c.now ≤ call.now := fun c hc => (h.past c hc).trans hle
  constructor
  · intro c hc
    rcases List.mem_append.mp hc with hc | hc
    · exact hbefore c hc
    · cases List.mem_singleton.mp hc
      exact le_refl _
  · refine List.pairwise_append.mpr ⟨h.sorted, List.pairwise_singleton _ _, fun c hc d hd => ?_⟩
    cases List.mem_singleton.mp hd
    exact hbefore c hc

theorem Holds.asks (h : Holds r₀ t s calls) {call : Call} (hle : t ≤ call.now)
    (hcall : call.operation ≠ .cleanup) :
    Holds r₀ call.now { s with rateLimiter := (s.rateLimiter.step call).1 } (calls ++ [call]) := by
  obtain ⟨hpast, hsorted⟩ := h.append hle
  refine ⟨(dispose_step _ _).trans h.made, hpast, hsorted, fun due hdue => ?_⟩
  obtain ⟨hswept, hstamped⟩ := h.stamped due hdue
  have hlater := hswept.trans hle
  refine ⟨hlater, ?_⟩
  rw [List.filter_append, List.filter_cons_of_pos (Call.recent_of_le hlater), List.filter_nil]
  exact hstamped.step hcall

theorem Holds.sweeps (h : Holds r₀ t s calls) (hsame : r₀.limiter.windowMs = r₀.windowMs)
    (hwindow : r₀.windowMs ≠ 0) (hdue : s.due = some due) {call : Call} (hle : t ≤ call.now)
    (hcall : call.operation = .cleanup) :
    Holds r₀ call.now
      ⟨(s.rateLimiter.step call).1, some (call.now + s.rateLimiter.cleanupIntervalMs)⟩
      (calls ++ [call]) := by
  obtain ⟨hpast, hsorted⟩ := h.append hle
  refine ⟨(dispose_step _ _).trans h.made, hpast, hsorted, fun later hlater => ?_⟩
  cases hlater
  have hwindows : s.rateLimiter.windowMs = r₀.windowMs := (congrArg RateLimiter.windowMs h.made :)
  have hinterval : s.rateLimiter.cleanupIntervalMs = r₀.cleanupIntervalMs := by
    rw [cleanupIntervalMs, hwindows, cleanupIntervalMs]
  have hlimiter : s.rateLimiter.limiter.windowMs = s.rateLimiter.windowMs := by
    rw [hwindows, ← hsame]
    exact Limiter.windowMs_of_clear (congrArg RateLimiter.limiter h.made :)
  have hstep : (s.rateLimiter.step call).1 = s.rateLimiter.cleanup call.now := by
    rw [RateLimiter.step, hcall]
  have hswept := (h.stamped due hdue).2.cleanup hlimiter (hwindows ▸ hwindow)
    (h.sorted.filter _) call.now
  rw [hwindows] at hswept
  rw [hinterval, add_sub_cancel_right, hstep]
  refine ⟨le_rfl, hswept.mono ?_⟩
  exact ((List.filter_sublist).trans (List.sublist_append_left _ _)).filter _

theorem Holds.disposes (h : Holds r₀ t s calls) {now : ℚ} (hle : t ≤ now) :
    Holds r₀ now ⟨s.rateLimiter.dispose, none⟩ calls := by
  have hpast : ∀ call ∈ calls, call.now ≤ now := fun call hcall => (h.past call hcall).trans hle
  refine ⟨(dispose_dispose _).trans h.made, hpast, h.sorted, fun due hdue => ?_⟩
  cases hdue

theorem Holds.step (h : Holds r₀ t s calls) (hsame : r₀.limiter.windowMs = r₀.windowMs)
    (hwindow : r₀.windowMs ≠ 0) (hle : t ≤ event.now) (hs : s.step event = some s') :
    Holds r₀ event.now s' (calls ++ event.call?.toList) := by
  obtain ⟨call, rfl, hcall, rfl⟩ | ⟨call, due, rfl, hcleanup, hdue, rfl⟩ | ⟨now, rfl, rfl⟩ :=
    step_cases hs
  · exact h.asks hle hcall
  · exact h.sweeps hsame hwindow hdue hle hcleanup
  · rw [Event.call?, Option.toList_none, List.append_nil]
    exact h.disposes hle

theorem Holds.run (h : Holds r₀ t s calls) (hsame : r₀.limiter.windowMs = r₀.windowMs)
    (hwindow : r₀.windowMs ≠ 0) {events : List Event} (hstart : ∀ e ∈ events, t ≤ e.now)
    (hsorted : events.Pairwise fun e f => e.now ≤ f.now) (hrun : s.run events = some s') :
    ∃ t', Holds r₀ t' s' (calls ++ events.filterMap Event.call?) := by
  induction events generalizing t s calls with
  | nil =>
    cases hrun
    exact ⟨t, by rwa [List.filterMap_nil, List.append_nil]⟩
  | cons e events ih =>
    obtain ⟨hfirst, hsorted⟩ := List.pairwise_cons.mp hsorted
    obtain ⟨s₁, hs, hrun⟩ := run_cons hrun
    have hnext := h.step hsame hwindow (hstart e List.mem_cons_self) hs
    obtain ⟨t', hlast⟩ := ih hnext hfirst hsorted hrun
    refine ⟨t', ?_⟩
    rw [← List.singleton_append, List.filterMap_append]
    rw [List.append_assoc] at hlast
    cases e with
    | call call => exact hlast
    | dispose now => exact hlast

theorem holds_new {options : Options} {start : ℚ} (hnew : new options start = .ok s₀) :
    s₀.rateLimiter.limiter.windowMs = s₀.rateLimiter.windowMs ∧ s₀.rateLimiter.windowMs ≠ 0 ∧
      Holds s₀.rateLimiter start s₀ [] := by
  obtain ⟨r, hr, rfl⟩ := Housekept.new_cases hnew
  obtain ⟨hsame, hwindow⟩ := windowMs_new hr
  obtain ⟨-, -, hblocked, hlimiter⟩ := RateLimiter.new_cases hr
  refine ⟨hsame, hwindow, rfl, fun _ hcall => absurd hcall List.not_mem_nil, .nil, ?_⟩
  intro due hdue
  cases hdue
  refine ⟨(add_sub_cancel_right _ _).le, ?_, ?_⟩
  · rcases hlimiter with ⟨burstLimit, -, -, heq⟩ | ⟨-, ⟨queueLimit, heq⟩ | heq | heq⟩
    all_goals
      rw [heq]
      intro key stored hget
      cases hget
  · rw [hblocked]
    intro key blockedUntil hget
    cases hget

/-- The calls since two windows before the last sweep, and the blocks that it kept. The interval is
due `cleanupIntervalMs` after a sweep. -/
def remembered (r₀ : RateLimiter) (due : ℚ) (events : List Event) : List Call :=
  (events.filterMap Event.call?).filter (Call.recent r₀.windowMs (due - r₀.cleanupIntervalMs))

/-- While the interval is set, a limiter holds only keys that were asked about since two windows
before its last sweep, and all it holds is at most two records for each time a key was asked about
since then, and one for each block. -/
theorem memory_follows_use {options : Options} {start : ℚ} (hnew : new options start = .ok s₀)
    {events : List Event} (hstart : ∀ e ∈ events, start ≤ e.now)
    (hsorted : events.Pairwise fun e f => e.now ≤ f.now) (hrun : s₀.run events = some s)
    (hdue : s.due = some due) :
    (∀ key ∈ s.rateLimiter.limiter.keys, key ∈ askedKeys (remembered s₀.rateLimiter due events)) ∧
      s.rateLimiter.records ≤ 2 * (askedKeys (remembered s₀.rateLimiter due events)).length +
        (blockedKeys (remembered s₀.rateLimiter due events)).length := by
  obtain ⟨hsame, hwindow, hholds⟩ := holds_new hnew
  obtain ⟨t, hlast⟩ := hholds.run hsame hwindow hstart hsorted hrun
  obtain ⟨-, hstamped⟩ := hlast.stamped due hdue
  refine ⟨fun key hkey => ?_, hstamped.records_le⟩
  obtain ⟨call, hcall, hasks, -⟩ := hstamped.limiter.asked hkey
  exact List.mem_filterMap.mpr ⟨call, hcall, hasks⟩

/-- A limiter in its default configuration, made at 0. -/
def defaultLimiter : Housekept := ⟨{
  windowMs := 60000
  maxRequests := 100
  strategy := "token-bucket"
  burstable := false
  limiter := .tokenBucket (.new 100 60000 false 150)
  blocked := .empty }, some 6000⟩

theorem new_default : new {} 0 = .ok defaultLimiter := by
  have hinterval : (0 : ℚ) + defaultLimiter.rateLimiter.cleanupIntervalMs = 6000 := by
    decide +kernel
  exact congrArg (fun due => Except.ok (Housekept.mk defaultLimiter.rateLimiter (some due)))
    hinterval

/-- Two keys are asked about, the second one much later; then the interval fires. -/
def asked : List Event :=
  [.call ⟨0, .checkRateLimit "a" 1⟩, .call ⟨500000, .checkRateLimit "b" 1⟩,
    .call ⟨506000, .cleanup⟩]

theorem memory_follows_use_default : ∃ s, defaultLimiter.run asked = some s ∧
    s.rateLimiter.limiter.keys ⊆ ["b"] ∧ s.rateLimiter.records ≤ 2 := by
  have hrun : (defaultLimiter.run asked).any (fun s => s.due = some 512000) = true := by
    decide +kernel
  obtain ⟨s, hs, hdue⟩ := (Option.any_eq_true _ _).mp hrun
  have hremembered : askedKeys (remembered defaultLimiter.rateLimiter 512000 asked) = ["b"] ∧
      blockedKeys (remembered defaultLimiter.rateLimiter 512000 asked) = [] := by decide +kernel
  obtain ⟨hkeys, hrecords⟩ := memory_follows_use new_default (by decide +kernel)
    (by decide +kernel) hs (of_decide_eq_true hdue)
  rw [hremembered.1] at hkeys hrecords
  rw [hremembered.2] at hrecords
  exact ⟨s, hs, hkeys, hrecords⟩

end Housekept

end RateLimiter

end RabbitMQ

import RabbitMQ.Resilience.RateLimiter.Doubles.Exactness

/-! Whole numbers need no rounding: a limiter with a window, whose limit, costs and instants are whole
numbers of 52 bits, computes no sum, no difference and no start of a window that the format lacks. -/

namespace RabbitMQ
namespace Doubles

open Binary64 (IsDouble isDouble_intCast)

/-- A whole number, with room for the sum of two. -/
def Whole (q : ℚ) : Prop := ∃ n : ℤ, q = n ∧ |n| ≤ 2 ^ 52

variable {a b c : ℚ}

theorem whole_zero : Whole 0 := ⟨0, Int.cast_zero.symm, by norm_num⟩

theorem Whole.isDouble_add (ha : Whole a) (hb : Whole b) : IsDouble (a + b) := by
  obtain ⟨n, rfl, hn⟩ := ha
  obtain ⟨m, rfl, hm⟩ := hb
  have hsum := isDouble_intCast ((abs_add_le n m).trans (by linarith))
  rwa [Int.cast_add] at hsum

theorem Whole.isDouble_sub (ha : Whole a) (hb : Whole b) : IsDouble (a - b) := by
  obtain ⟨n, rfl, hn⟩ := ha
  obtain ⟨m, rfl, hm⟩ := hb
  have hdiff := isDouble_intCast ((abs_sub n m).trans (by linarith))
  rwa [Int.cast_sub] at hdiff

theorem Whole.of_le {n : ℤ} (hc : Whole c) (hn : (0 : ℚ) ≤ n) (hle : (n : ℚ) ≤ c) : Whole n := by
  obtain ⟨m, rfl, hm⟩ := hc
  have hpos : 0 ≤ n := by exact_mod_cast hn
  have hle : n ≤ m := by exact_mod_cast hle
  refine ⟨n, rfl, ?_⟩
  rw [abs_of_nonneg hpos]
  exact hle.trans ((le_abs_self m).trans hm)

theorem Whole.add (ha : Whole a) (hb : Whole b) (hc : Whole c) (hnonneg : 0 ≤ a + b)
    (hle : a + b ≤ c) : Whole (a + b) := by
  obtain ⟨n, rfl, -⟩ := ha
  obtain ⟨m, rfl, -⟩ := hb
  rw [← Int.cast_add] at hnonneg hle ⊢
  exact hc.of_le hnonneg hle

theorem Whole.sub (ha : Whole a) (hb : Whole b) (hb' : 0 ≤ b) (hnonneg : 0 ≤ a - b) :
    Whole (a - b) := by
  have hle : a - b ≤ a := sub_le_self a hb'
  obtain ⟨n, hn, -⟩ := id ha
  obtain ⟨m, rfl, -⟩ := hb
  subst hn
  rw [← Int.cast_sub] at hnonneg hle ⊢
  exact ha.of_le hnonneg hle

/-- A whole cost that is not negative. -/
def WholeCost (cost : ℚ) : Prop := Whole cost ∧ 0 ≤ cost

/-! ## Window logs -/

namespace WindowLogStrategy

open RabbitMQ.WindowLogStrategy (sum)

/-- A log of whole costs at whole instants, with its total. -/
structure WholeData (w : RabbitMQ.WindowData) : Prop where
  timestamps : ∀ entry ∈ w.entries, Whole entry.timestamp
  costs : ∀ entry ∈ w.entries, WholeCost entry.cost
  total : w.total = sum w.entries
  whole : Whole w.total

structure WholeLog (s : RabbitMQ.WindowLogStrategy) : Prop where
  limit : Whole s.limit
  windows : ∀ key windowData, s.windows.get? key = some windowData → WholeData windowData

variable {s : RabbitMQ.WindowLogStrategy} {w : RabbitMQ.WindowData} {key : String} {cost now : ℚ}

theorem wholeData_nil : WholeData ⟨[], 0⟩ := ⟨nofun, nofun, rfl, whole_zero⟩

theorem WholeData.total_nonneg (h : WholeData w) : 0 ≤ w.total := by
  rw [h.total]
  refine List.sum_nonneg fun cost hcost => ?_
  obtain ⟨entry, hentry, rfl⟩ := List.mem_map.mp hcost
  exact (h.costs entry hentry).2

/-- What is left of a log once its first entry is gone. -/
theorem WholeData.tail {entry : RabbitMQ.LogEntry} {entries : List RabbitMQ.LogEntry} {total : ℚ}
    (h : WholeData ⟨entry :: entries, total⟩) : WholeData ⟨entries, total - entry.cost⟩ := by
  have htotal : total - entry.cost = sum entries := by
    rw [show total = sum (entry :: entries) from h.total, sum, sum, List.map_cons, List.sum_cons,
      add_sub_cancel_left]
  have hcosts : ∀ e ∈ entries, WholeCost e.cost := fun e he => h.costs e (List.mem_cons_of_mem _ he)
  obtain ⟨hcost, hnonneg⟩ := h.costs entry List.mem_cons_self
  refine ⟨fun e he => h.timestamps e (List.mem_cons_of_mem _ he), hcosts, htotal, ?_⟩
  refine Whole.sub h.whole hcost hnonneg ?_
  rw [htotal]
  refine List.sum_nonneg fun c hc => ?_
  obtain ⟨e, he, rfl⟩ := List.mem_map.mp hc
  exact (hcosts e he).2

theorem WholeData.evict (windowMs now : ℚ) {entries : List RabbitMQ.LogEntry} {total : ℚ}
    (h : WholeData ⟨entries, total⟩) :
    EvictExact (.finite windowMs) (.finite now) (entries.map .ofRat) (.finite total) ∧
      WholeData (RabbitMQ.WindowLogStrategy.evict windowMs now entries total) := by
  induction entries generalizing total with
  | nil => exact ⟨trivial, h⟩
  | cons entry entries ih =>
    obtain ⟨hexact, hleft⟩ := ih h.tail
    have hdiff : IsDouble (total - entry.cost) :=
      h.whole.isDouble_sub (h.costs entry List.mem_cons_self).1
    constructor
    · refine fun _ => ⟨hdiff, ?_⟩
      rw [LogEntry.ofRat, Number.sub_finite hdiff]
      exact hexact
    · rw [RabbitMQ.WindowLogStrategy.evict]
      split
      · exact hleft
      · exact h

theorem WholeLog.windowFor (h : WholeLog s) (key : String) : WholeData (s.windowFor key) := by
  rw [RabbitMQ.WindowLogStrategy.windowFor]
  cases hget : s.windows.get? key with
  | none => exact wholeData_nil
  | some windowData => exact h.windows key windowData hget

theorem WholeLog.evicted (h : WholeLog s) (key : String) (now : ℚ) :
    WholeData (s.evictExpired (s.windowFor key) now) := ((h.windowFor key).evict s.windowMs now).2

theorem WholeLog.expiryExact (h : WholeLog s) (key : String) (hnow : Whole now) :
    (ofRat s).ExpiryExact key (.finite now) := by
  rw [ExpiryExact, TotalExact, windowFor_ofRat]
  refine ⟨fun entry hentry => ?_, ((h.windowFor key).evict s.windowMs now).1⟩
  obtain ⟨e, he, rfl⟩ := List.mem_map.mp hentry
  exact hnow.isDouble_sub ((h.windowFor key).timestamps e he)

theorem WholeLog.occupyExact (h : WholeLog s) (key : String) (hcost : WholeCost cost)
    (hnow : Whole now) : (ofRat s).OccupyExact key (.finite cost) (.finite now) := by
  refine ⟨h.expiryExact key hnow, ?_⟩
  rw [evictExpired_ofRat s (h.expiryExact key hnow)]
  exact (h.evicted key now).whole.isDouble_add hcost.1

theorem WholeLog.remainingExact (h : WholeLog s) (key : String) (hnow : Whole now) :
    (ofRat s).RemainingExact key (.finite now) := by
  refine ⟨h.expiryExact key hnow, ?_⟩
  rw [evictExpired_ofRat s (h.expiryExact key hnow)]
  exact h.limit.isDouble_sub (h.evicted key now).whole

theorem WholeLog.set (h : WholeLog s) (hw : WholeData w) (key : String) :
    WholeLog { s with windows := s.windows.set key w } := by
  refine ⟨h.limit, fun j windowData hget => ?_⟩
  dsimp only at hget
  rw [OrderedMap.get?_set] at hget
  split at hget
  · cases hget
    exact hw
  · exact h.windows j windowData hget

theorem WholeLog.occupy (h : WholeLog s) (key : String) (hcost : WholeCost cost)
    (hnow : Whole now) : WholeLog (s.occupy key cost now).2 := by
  have hevicted := h.evicted key now
  rw [RabbitMQ.WindowLogStrategy.occupy]
  generalize s.evictExpired (s.windowFor key) now = evicted at hevicted ⊢
  split
  · exact h.set hevicted key
  · next hfits =>
    refine h.set ⟨fun entry hentry => ?_, fun entry hentry => ?_, ?_, ?_⟩ key
    · rcases List.mem_append.mp hentry with hold | hnew
      · exact hevicted.timestamps entry hold
      · obtain rfl := List.mem_singleton.mp hnew
        exact hnow
    · rcases List.mem_append.mp hentry with hold | hnew
      · exact hevicted.costs entry hold
      · obtain rfl := List.mem_singleton.mp hnew
        exact hcost
    · rw [RabbitMQ.WindowLogStrategy.sum_append, ← hevicted.total]
    · exact hevicted.whole.add hcost.1 h.limit (add_nonneg hevicted.total_nonneg hcost.2)
        (not_lt.mp hfits)

theorem WholeLog.remaining (h : WholeLog s) (key : String) (now : ℚ) :
    WholeLog (s.remaining key now).2 := by
  rw [RabbitMQ.WindowLogStrategy.remaining]
  split
  · exact h
  · next windowData hget =>
    have hevicted := h.evicted key now
    rw [windowFor_of_get? hget] at hevicted
    exact h.set hevicted key

theorem WholeLog.sweep (h : WholeLog s) (now : ℚ) (key : String) : WholeLog (s.sweep now key) := by
  rw [RabbitMQ.WindowLogStrategy.sweep]
  split
  · exact h
  · next windowData hget =>
    have hevicted := h.evicted key now
    rw [windowFor_of_get? hget] at hevicted
    dsimp only
    split
    · refine ⟨h.limit, fun j windowData' hget' => ?_⟩
      dsimp only at hget'
      rw [OrderedMap.get?_erase] at hget'
      split at hget'
      · cases hget'
      · exact h.windows j windowData' hget'
    · exact h.set hevicted key

theorem WholeLog.cleanup (h : WholeLog s) (now : ℚ) : WholeLog (s.cleanup now) := by
  rw [RabbitMQ.WindowLogStrategy.cleanup]
  generalize s.windows.keys = keys
  induction keys generalizing s with
  | nil => exact h
  | cons key keys ih => exact ih (h.sweep now key)

/-- The call is at a whole instant, and an entry has a whole cost. -/
structure WholeCall (call : RabbitMQ.WindowLogStrategy.Call) : Prop where
  now : Whole call.now
  cost : ∀ key cost, call.operation = .occupy key cost → WholeCost cost

theorem WholeLog.exact (h : WholeLog s) {call : RabbitMQ.WindowLogStrategy.Call}
    (hcall : WholeCall call) : (ofRat s).Exact call := by
  obtain ⟨now, operation⟩ := call
  cases operation with
  | occupy key cost => exact h.occupyExact key (hcall.cost key cost rfl) hcall.now
  | remaining key => exact h.remainingExact key hcall.now
  | cleanup => exact fun key _ => h.expiryExact key hcall.now

theorem WholeLog.step (h : WholeLog s) {call : RabbitMQ.WindowLogStrategy.Call}
    (hcall : WholeCall call) : WholeLog (s.step call).1 := by
  obtain ⟨now, operation⟩ := call
  cases operation with
  | occupy key cost => exact h.occupy key (hcall.cost key cost rfl) hcall.now
  | remaining key => exact h.remaining key now
  | cleanup => exact h.cleanup now

/-- A log of a whole limit needs no rounding in a run of whole costs at whole instants. -/
theorem exact_of_whole {limit : ℚ} (hlimit : Whole limit) (windowMs : ℚ)
    {calls : List RabbitMQ.WindowLogStrategy.Call} (hcalls : ∀ call ∈ calls, WholeCall call) :
    Observation.Each Doubles.WindowLogStrategy.step Exact (new (.finite limit) (.finite windowMs))
      calls := by
  refine Observation.Each.of_invariant (I := fun log => ∃ s, log = ofRat s ∧ WholeLog s) ?_ ?_
    ⟨.new limit windowMs, rfl, hlimit, nofun⟩ hcalls
  · rintro _ call ⟨s, rfl, h⟩ hcall
    exact h.exact hcall
  · rintro _ call ⟨s, rfl, h⟩ hcall
    exact ⟨_, congrArg Prod.fst (step_ofRat s call (h.exact hcall)), h.step hcall⟩

end WindowLogStrategy

/-! ## Fixed windows -/

namespace FixedWindowStrategy

/-- Counters of whole costs, for windows of a whole length. -/
structure WholeCounters (s : RabbitMQ.FixedWindowStrategy) : Prop where
  maxRequests : Whole s.maxRequests
  windowMs : Whole s.windowMs
  positive : 0 < s.windowMs
  counters : ∀ key counter, s.counters.get? key = some counter → WholeCost counter.count

variable {s : RabbitMQ.FixedWindowStrategy} {key : String} {cost now : ℚ}

/-- The quotient may be rounded, the window it falls into is not. -/
theorem startExact_of_whole {windowMs : ℚ} (hwindow : Whole windowMs) (hpos : 0 < windowMs)
    (hnow : Whole now) : StartExact (.finite windowMs) (.finite now) := by
  obtain ⟨m, rfl, hm⟩ := hwindow
  obtain ⟨n, rfl, hn⟩ := hnow
  have hm' : 0 < m := by exact_mod_cast hpos
  have hroom : (2 : ℤ) ^ 52 < 2 ^ 53 := by norm_num
  have hn' : |n| < 2 ^ 53 := hn.trans_lt hroom
  have hquotient : (Number.finite n).div (.finite m) = .finite (Binary64.round (n / m)) := by
    rw [Number.div, if_neg hpos.ne']
    exact Number.of_eq_round (Binary64.abs_round_div_lt hm' hn'.le)
  have hstart : IsDouble (⌊(n / m : ℚ)⌋ * m) := by
    have hlow := Int.floor_le (n / m : ℚ)
    have hhigh := Int.lt_floor_add_one (n / m : ℚ)
    rw [le_div_iff₀ hpos] at hlow
    rw [div_lt_iff₀ hpos, add_one_mul] at hhigh
    have hlow' : ⌊(n / m : ℚ)⌋ * m ≤ n := by exact_mod_cast hlow
    have hhigh' : n < ⌊(n / m : ℚ)⌋ * m + m := by exact_mod_cast hhigh
    have hbound : |⌊(n / m : ℚ)⌋ * m| ≤ 2 ^ 53 := by
      have hn := abs_le.mp hn
      have hm := abs_le.mp hm
      exact abs_le.mpr ⟨by linarith, by linarith⟩
    exact_mod_cast isDouble_intCast hbound
  rw [StartExact, windowStart, hquotient, Number.floor_finite,
    Binary64.floor_round_div hm' ((le_abs_self m).trans (hm.trans hroom.le)) hn']
  exact Number.mul_finite hstart

theorem WholeCounters.used (h : WholeCounters s) (key : String) (now : ℚ) :
    WholeCost (s.used key now) := by
  cases hget : s.counters.get? key with
  | none =>
    rw [RabbitMQ.FixedWindowStrategy.used, Meter.reading_of_get?_none hget]
    exact ⟨whole_zero, le_rfl⟩
  | some counter =>
    rw [RabbitMQ.FixedWindowStrategy.used, Meter.reading_of_get? hget,
      RabbitMQ.FixedWindowStrategy.level]
    split
    · exact h.counters key counter hget
    · exact ⟨whole_zero, le_rfl⟩

theorem WholeCounters.startExact (h : WholeCounters s) (hnow : Whole now) :
    StartExact (.finite s.windowMs) (.finite now) :=
  startExact_of_whole h.windowMs h.positive hnow

theorem WholeCounters.checkExact (h : WholeCounters s) (key : String) (hcost : WholeCost cost)
    (hnow : Whole now) : (ofRat s).CheckExact key (.finite cost) (.finite now) := by
  refine ⟨h.startExact hnow, ?_⟩
  rw [counterFor_ofRat s (h.startExact hnow)]
  exact (h.used key now).1.isDouble_add hcost.1

theorem WholeCounters.remainingExact (h : WholeCounters s) (key : String) (hnow : Whole now) :
    (ofRat s).RemainingExact key (.finite now) := by
  refine ⟨h.startExact hnow, ?_⟩
  rw [counterFor_ofRat s (h.startExact hnow)]
  exact h.maxRequests.isDouble_sub (h.used key now).1

theorem WholeCounters.set (h : WholeCounters s) {counter : RabbitMQ.Counter}
    (hcount : WholeCost counter.count) (key : String) :
    WholeCounters { s with counters := s.counters.set key counter } := by
  refine ⟨h.maxRequests, h.windowMs, h.positive, fun j c hget => ?_⟩
  dsimp only at hget
  rw [OrderedMap.get?_set] at hget
  split at hget
  · cases hget
    exact hcount
  · exact h.counters j c hget

theorem WholeCounters.check (h : WholeCounters s) (key : String) (hcost : WholeCost cost)
    (now : ℚ) : WholeCounters (s.check key cost now).2 := by
  have hused := h.used key now
  rcases le_or_gt (s.used key now + cost) s.maxRequests with hfits | hover
  · rw [RabbitMQ.FixedWindowStrategy.check_admits hfits]
    have hnonneg : 0 ≤ s.used key now + cost := add_nonneg hused.2 hcost.2
    exact h.set ⟨hused.1.add hcost.1 h.maxRequests hnonneg hfits, hnonneg⟩ key
  · rcases RabbitMQ.FixedWindowStrategy.check_refuses hover with heq | heq
    · rw [heq]
      exact h
    · rw [heq]
      exact h.set hused key

theorem WholeCounters.cleanup (h : WholeCounters s) (now : ℚ) : WholeCounters (s.cleanup now) :=
  ⟨h.maxRequests, h.windowMs, h.positive, fun key counter hget =>
    h.counters key counter (OrderedMap.get?_filter.mp hget).1⟩

end FixedWindowStrategy

/-! ## Limiters with a window -/

namespace Limiter

/-- A limiter that counts whole numbers in a window. -/
def WholeLimiter : RabbitMQ.RateLimiter.Limiter → Prop
  | .slidingWindow s => WindowLogStrategy.WholeLog s.toWindowLogStrategy
  | .fixedWindow s => FixedWindowStrategy.WholeCounters s
  | .tokenBucket _ | .leakyBucket _ => False

/-- The call is at a whole instant, and a check is of a whole cost. -/
structure WholeCall (call : RabbitMQ.RateLimiter.Limiter.Call) : Prop where
  now : Whole call.now
  cost : ∀ key cost, call.operation = .check key cost → WholeCost cost

variable {limiter : RabbitMQ.RateLimiter.Limiter} {call : RabbitMQ.RateLimiter.Limiter.Call}

theorem WholeLimiter.exact (h : WholeLimiter limiter) (hcall : WholeCall call) :
    (ofRat limiter).Exact call := by
  obtain ⟨now, operation⟩ := call
  cases limiter with
  | tokenBucket s | leakyBucket s => cases h
  | fixedWindow s =>
    cases operation with
    | check key cost =>
      exact ⟨FixedWindowStrategy.WholeCounters.checkExact h key (hcall.cost key cost rfl) hcall.now,
        trivial⟩
    | remaining key => exact FixedWindowStrategy.WholeCounters.remainingExact h key hcall.now
    | cleanup => exact FixedWindowStrategy.WholeCounters.startExact h hcall.now
  | slidingWindow s =>
    cases operation with
    | check key cost =>
      exact ⟨WindowLogStrategy.WholeLog.occupyExact h key (hcall.cost key cost rfl) hcall.now,
        trivial⟩
    | remaining key => exact WindowLogStrategy.WholeLog.remainingExact h key hcall.now
    | cleanup => exact fun key _ => WindowLogStrategy.WholeLog.expiryExact h key hcall.now

theorem WholeLimiter.step (h : WholeLimiter limiter) (hcall : WholeCall call) :
    WholeLimiter (limiter.step call).1 := by
  obtain ⟨now, operation⟩ := call
  cases limiter with
  | tokenBucket s | leakyBucket s => cases h
  | fixedWindow s =>
    cases operation with
    | check key cost =>
      exact FixedWindowStrategy.WholeCounters.check h key (hcall.cost key cost rfl) now
    | remaining key => exact h
    | cleanup => exact FixedWindowStrategy.WholeCounters.cleanup h now
  | slidingWindow s =>
    cases operation with
    | check key cost =>
      exact WindowLogStrategy.WholeLog.occupy h key (hcall.cost key cost rfl) hcall.now
    | remaining key => exact WindowLogStrategy.WholeLog.remaining h key now
    | cleanup => exact WindowLogStrategy.WholeLog.cleanup h now

/-- A limiter that counts whole numbers in a window needs no rounding in a run of whole costs at
whole instants. -/
theorem exact_of_whole (h : WholeLimiter limiter)
    {calls : List RabbitMQ.RateLimiter.Limiter.Call} (hcalls : ∀ call ∈ calls, WholeCall call) :
    Observation.Each Doubles.Limiter.step Exact (ofRat limiter) calls := by
  refine Observation.Each.of_invariant (I := fun l => ∃ limiter, l = ofRat limiter ∧
    WholeLimiter limiter) ?_ ?_ ⟨limiter, rfl, h⟩ hcalls
  · rintro _ call ⟨limiter, rfl, h⟩ hcall
    exact h.exact hcall
  · rintro _ call ⟨limiter, rfl, h⟩ hcall
    exact ⟨_, congrArg Prod.fst (step_ofRat limiter call (h.exact hcall)), h.step hcall⟩

end Limiter

end Doubles
end RabbitMQ

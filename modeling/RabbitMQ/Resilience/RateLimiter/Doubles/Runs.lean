import RabbitMQ.Resilience.RateLimiter.Doubles.WholeNumbers
import RabbitMQ.Resilience.RateLimiter.Pacing
import RabbitMQ.Resilience.RateLimiter.Windows

/-! What the strategies admit in runs that need no rounding, and how far rounding takes them from it:
a log keeps a rest when all its entries have expired, a window counts less or more than it admits. -/

namespace RabbitMQ
namespace Doubles

open Observation
open RabbitMQ.RateLimiter (Admission total)

/-! ## Window logs -/

namespace WindowLogStrategy

open RabbitMQ.WindowLogStrategy (inInterval sum)

/-- In a run that needs no rounding a window log answers what the naive definition does, and its
totals are right. So a sliding window admits no more than its limit in an interval that is no longer
than the window; a limit that is negative admits nothing. Whole numbers need no rounding. -/
theorem window_log_eq_naive (limit windowMs : ℚ) :
    (∀ calls : List RabbitMQ.WindowLogStrategy.Call,
      calls.Pairwise (fun call call' => call.now ≤ call'.now) →
      (∀ call ∈ calls, call.CostNonneg) →
      Each step Exact (new (.finite limit) (.finite windowMs)) calls →
        answers step (new (.finite limit) (.finite windowMs)) calls =
          (answers NaiveLog.step (.new limit windowMs) calls).map .ofRat ∧
        ∀ key windowData,
          (after step (new (.finite limit) (.finite windowMs)) calls).windows.get? key =
            some windowData → ∃ entries, windowData = .ofRat ⟨entries, sum entries⟩) ∧
    (∀ calls : List RabbitMQ.RateLimiter.Limiter.Call,
      calls.Pairwise (fun call call' => call.now ≤ call'.now) →
      (∀ call ∈ calls, call.CostNonneg) →
      Each Limiter.step Limiter.Exact
        (.slidingWindow (new (.finite limit) (.finite windowMs))) calls →
        ∀ key first last, last - first ≤ windowMs →
          total ((Limiter.slidingWindow (new (.finite limit) (.finite windowMs))).admissions calls)
            (inInterval key first last) ≤ max 0 limit) ∧
    (Whole limit →
      (∀ calls, (∀ call ∈ calls, WholeCall call) →
        Each step Exact (new (.finite limit) (.finite windowMs)) calls) ∧
      ∀ calls, (∀ call ∈ calls, Limiter.WholeCall call) → Each Limiter.step Limiter.Exact
        (.slidingWindow (new (.finite limit) (.finite windowMs))) calls) := by
  obtain ⟨hlog, hsliding⟩ := RabbitMQ.WindowLogStrategy.eq_naive limit windowMs
  refine ⟨fun calls hsorted hcosts hexact => ?_, fun calls hsorted hcosts hexact => ?_,
    fun hlimit => ⟨fun calls => exact_of_whole hlimit windowMs, fun calls =>
      @Limiter.exact_of_whole (.slidingWindow (.new limit windowMs)) ⟨hlimit, nofun⟩ calls⟩⟩
  · obtain ⟨heq, htotals⟩ := hlog calls hsorted hcosts
    obtain ⟨hanswers, hafter⟩ := Each.image (f := ofRat) (k := id) step_ofRat
      (s := .new limit windowMs) ((List.map_id calls).symm ▸ hexact)
    rw [List.map_id] at hanswers hafter
    refine ⟨hanswers.trans (congrArg _ heq), fun key windowData hget => ?_⟩
    have hget' := (congrArg (·.windows.get? key) hafter).symm.trans hget
    rw [get?_ofRat, Option.map_eq_some_iff] at hget'
    obtain ⟨⟨entries, total⟩, hget', rfl⟩ := hget'
    refine ⟨entries, ?_⟩
    rw [← htotals key ⟨entries, total⟩ hget']
  · have hruns := Limiter.run_ofRat (.slidingWindow (.new limit windowMs)) hexact
    intro key first last hshort
    refine le_of_eq_of_le (congrArg (total · _) hruns.1) ?_
    exact hsliding calls hsorted hcosts key first last hshort

/-- An entry is still in the window at its very end. -/
def atTheEnd : List RabbitMQ.WindowLogStrategy.Call :=
  [⟨0, .occupy "" 2⟩, ⟨1000, .occupy "" 1⟩, ⟨1001, .cleanup⟩, ⟨1001, .remaining ""⟩,
    ⟨1001, .occupy "" 1⟩]

theorem naive_at_the_end :
    answers step (new (.finite 2) (.finite 1000)) atTheEnd = [.occupancy (some (.finite 0)),
      .occupancy none, .remaining (.finite 2), .occupancy (some (.finite 0))] := by
  have hcosts : ∀ call ∈ atTheEnd, call.CostNonneg := by
    simp [atTheEnd, RabbitMQ.WindowLogStrategy.Call.CostNonneg]
  have hnaive := (window_log_eq_naive 2 1000).1 atTheEnd (by decide +kernel) hcosts
    (by decide +kernel)
  rw [hnaive.1]
  decide +kernel

/-- Costs of 0.2, 0.4 and 0.3 that have expired, and a check of the whole limit. -/
def residue : List RabbitMQ.WindowLogStrategy.Call :=
  [⟨0, .occupy "" (Binary64.round (2 / 10))⟩, ⟨1, .occupy "" (Binary64.round (4 / 10))⟩,
    ⟨2, .occupy "" (Binary64.round (3 / 10))⟩, ⟨103, .occupy "" 1⟩]

/-- The naive definition admits the check, but the log, which is empty, still has a total. -/
theorem residue_refuses :
    (answers NaiveLog.step (.new 1 100) residue).getLast? = some (.occupancy (some 0)) ∧
    (answers step (new (.finite 1) (.finite 100)) residue).getLast? = some (.occupancy none) ∧
    (after step (new (.finite 1) (.finite 100)) residue).windows.get? "" =
      some ⟨[], .finite (3 / 2 ^ 54)⟩ := by
  decide +kernel

end WindowLogStrategy

/-! ## Fixed windows -/

namespace FixedWindowStrategy

open RabbitMQ.FixedWindowStrategy (window ofWindow)

/-- A run of a fixed window that needs no rounding admits in each window of a key no more than the
limit, refuses only what would exceed it, and admits no more than twice the limit in an interval that
is no longer than a window. A limit that is negative admits nothing. Whole numbers need no
rounding. -/
theorem fixed_window_bound (maxRequests windowMs : ℚ) :
    let limiter := Limiter.fixedWindow (new (.finite maxRequests) (.finite windowMs))
    (∀ calls : List RabbitMQ.RateLimiter.Limiter.Call,
      calls.Pairwise (fun call call' => call.now ≤ call'.now) →
      (∀ call ∈ calls, call.CostNonneg) → Each Limiter.step Limiter.Exact limiter calls → ∀ key,
        (∀ k, total (limiter.admissions calls) (ofWindow windowMs key k) ≤ max 0 maxRequests) ∧
        (∀ cost now, (∀ call ∈ calls, call.now ≤ now) →
          (limiter.run calls).CheckExact key (.finite cost) (.finite now) →
          ((limiter.run calls).check key (.finite cost) (.finite now)).1 = false →
            maxRequests < total (limiter.admissions calls)
              (ofWindow windowMs key (window windowMs now)) + cost) ∧
        ∀ a b, b - a ≤ windowMs → total (limiter.admissions calls)
          (fun admission => admission.key = key ∧ a ≤ admission.now ∧ admission.now ≤ b) ≤
            2 * max 0 maxRequests) ∧
    (Whole maxRequests → Whole windowMs → 0 < windowMs → ∀ calls,
      (∀ call ∈ calls, Limiter.WholeCall call) →
        Each Limiter.step Limiter.Exact limiter calls) := by
  intro limiter
  refine ⟨fun calls hsorted hcosts hexact key => ?_, fun hmax hwindow hpos calls =>
    @Limiter.exact_of_whole (.fixedWindow (.new maxRequests windowMs))
      ⟨hmax, hwindow, hpos, nofun⟩ calls⟩
  obtain ⟨hadmissions, hrun⟩ := Limiter.run_ofRat (.fixedWindow (.new maxRequests windowMs)) hexact
  obtain ⟨hwithin, hrefuses, hinterval⟩ :=
    RabbitMQ.FixedWindowStrategy.bounded maxRequests windowMs hsorted hcosts key
  have hadmissions' : limiter.admissions calls = _ := hadmissions
  have hrun' : limiter.run calls = _ := hrun
  rw [hadmissions', hrun']
  refine ⟨hwithin, fun cost now hend hcheck hrefused => ?_, hinterval⟩
  rw [Limiter.check_ofRat _ hcheck] at hrefused
  exact hrefuses cost now hend hrefused

/-- The calls on both sides of a boundary. -/
def acrossBoundary : List RabbitMQ.RateLimiter.Limiter.Call :=
  [⟨999, .check "" 2⟩, ⟨1000, .cleanup⟩, ⟨1000, .check "" 2⟩]

/-- Both windows are filled within a millisecond, and no more is possible. -/
theorem boundary_filled :
    let limiter := Limiter.fixedWindow (new (.finite 2) (.finite 1000))
    let admitted := total (limiter.admissions acrossBoundary)
      (fun admission => admission.key = "" ∧ 999 ≤ admission.now ∧ admission.now ≤ 1000)
    admitted = 4 ∧ admitted ≤ 2 * max 0 2 := by
  have hcosts : ∀ call ∈ acrossBoundary, call.CostNonneg := by
    simp [acrossBoundary, RabbitMQ.RateLimiter.Limiter.Call.CostNonneg]
  have hbound := (fixed_window_bound 2 1000).1 acrossBoundary (by decide +kernel) hcosts
    (by decide +kernel) ""
  exact ⟨by decide +kernel, hbound.2.2 999 1000 (by norm_num)⟩

/-- Checks of these numbers of tenths at one instant. -/
def tenths (costs : List ℚ) : List RabbitMQ.RateLimiter.Limiter.Call :=
  costs.map fun cost => ⟨0, .check "" (Binary64.round (cost / 10))⟩

/-- Ten checks of 0.1 are admitted, which are more than 1; and after 0.3, 0.1, 0.2 and 0.3 a check of
0.1 is refused, with which they would be no more than 1. -/
theorem tenths_miscounted :
    let limiter := Limiter.fixedWindow (new (.finite 1) (.finite 1000))
    1 < total (limiter.admissions (tenths (List.replicate 10 1))) (ofWindow 1000 "" 0) ∧
    ((limiter.run (tenths [3, 1, 2, 3])).check "" (.finite (Binary64.round (1 / 10)))
      (.finite 0)).1 = false ∧
    total (limiter.admissions (tenths [3, 1, 2, 3])) (ofWindow 1000 "" 0) +
      Binary64.round (1 / 10) = 1 := by
  decide +kernel

end FixedWindowStrategy

/-! ## Leaky buckets -/

namespace LeakyBucketStrategy

open RabbitMQ.LeakyBucketStrategy (Paced Leaked ofKey)

/-- A leaky bucket whose rate and whose run need no rounding, and whose sleeps take as long as they
should, keeps its pace exactly when what leaves the log between two admissions of a key would have
leaked by then. -/
theorem paced_iff_leaked {maxRequests windowMs queueLimit : ℚ} (hmax : maxRequests ≠ 0)
    (hrate : Binary64.IsDouble (windowMs / maxRequests))
    {calls : List RabbitMQ.RateLimiter.Limiter.Call}
    (hsorted : calls.Pairwise fun call call' => call.now ≤ call'.now)
    (hcosts : ∀ call ∈ calls, call.CostNonneg)
    (hexact : Each Limiter.step Limiter.Exact
      (.leakyBucket (new (.finite maxRequests) (.finite windowMs) (.finite queueLimit))) calls)
    (key : String) :
    let admissions := ofKey key ((Limiter.leakyBucket
      (new (.finite maxRequests) (.finite windowMs) (.finite queueLimit))).admissions calls)
    Paced (windowMs / maxRequests) admissions ↔
      Leaked windowMs (windowMs / maxRequests) admissions := by
  have hnew : new (.finite maxRequests) (.finite windowMs) (.finite queueLimit) =
      ofRat (.new maxRequests windowMs queueLimit) := by
    rw [new, Number.div_finite hmax hrate]
    rfl
  rw [hnew] at hexact ⊢
  have hruns := Limiter.run_ofRat (.leakyBucket (.new maxRequests windowMs queueLimit)) hexact
  have hadmissions : (Limiter.leakyBucket (ofRat (.new maxRequests windowMs queueLimit))).admissions
      calls = _ := hruns.1
  rw [hadmissions]
  exact RabbitMQ.LeakyBucketStrategy.paced_iff_expired maxRequests windowMs queueLimit hsorted hcosts
    key

/-- Two checks at once, the second of which waits for the first. -/
theorem paced_pair : Paced (1000 / 10) (ofKey "" ((Limiter.leakyBucket
    (new (.finite 10) (.finite 1000) (.finite 10))).admissions
      [⟨0, .check "" 1⟩, ⟨0, .check "" 1⟩])) := by
  have hcosts : ∀ call ∈ [(⟨0, .check "" 1⟩ : RabbitMQ.RateLimiter.Limiter.Call), ⟨0, .check "" 1⟩],
      call.CostNonneg := by
    simp [RabbitMQ.RateLimiter.Limiter.Call.CostNonneg]
  refine (paced_iff_leaked (by norm_num) (by decide +kernel) (by decide +kernel) hcosts
    (by decide +kernel) "").mpr ?_
  intro earlier a b later heq
  have hadmitted : ofKey "" ((Limiter.leakyBucket
      (new (.finite 10) (.finite 1000) (.finite 10))).admissions
        [⟨0, .check "" 1⟩, ⟨0, .check "" 1⟩]) = [⟨"", 1, 0, 0⟩, ⟨"", 1, 0, 100⟩] := by
    decide +kernel
  rw [hadmitted] at heq
  cases earlier with
  | nil =>
    cases heq
    decide +kernel
  | cons e earlier =>
    have hlength := congrArg List.length heq
    simp only [List.length_cons, List.length_nil, List.length_append] at hlength
    omega

/-- The log is full at 1000, where a check waits until 1900; a millisecond later most of it has
expired, and the next check is released at 1101. -/
theorem overtaken : ¬ Paced (1000 / 10) (ofKey "" ((Limiter.leakyBucket
    (new (.finite 10) (.finite 1000) (.finite 10))).admissions
      [⟨0, .check "" 9⟩, ⟨1000, .check "" 1⟩, ⟨1001, .check "" 1⟩])) := by
  intro hpaced
  have hlate := hpaced [⟨"", 9, 0, 0⟩] ⟨"", 1, 1000, 900⟩ ⟨"", 1, 1001, 100⟩ [] (by decide +kernel)
  revert hlate
  decide +kernel

end LeakyBucketStrategy

end Doubles
end RabbitMQ

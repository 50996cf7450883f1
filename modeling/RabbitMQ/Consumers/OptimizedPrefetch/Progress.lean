import Mathlib.Tactic.Linarith
import Mathlib.Tactic.NormNum
import RabbitMQ.Consumers.OptimizedPrefetch

/-! The prefetch under the default factors: it stays within its bounds, and moves with each window
that is fast or slow, except that a fast window does not raise it from one. -/

namespace RabbitMQ
namespace OptimizedPrefetch

open Transition

variable {options : Options} {c : ℤ}

def fast (avg : Option ℚ) : Prop := ∃ a, avg = some a ∧ a < 100

def slow (avg : Option ℚ) : Prop := ∃ a, avg = some a ∧ 500 < a

/-- The default factors, and an initial prefetch within its bounds. -/
structure Usual (options : Options) : Prop where
  increaseFactor : options.increaseFactor = 3 / 2
  decreaseFactor : options.decreaseFactor = 3 / 4
  positive : 1 ≤ options.minPrefetch
  low : options.minPrefetch ≤ options.initialPrefetch
  high : options.initialPrefetch ≤ options.maxPrefetch

def Within (options : Options) (c : ℤ) : Prop :=
  options.minPrefetch ≤ c ∧ c ≤ options.maxPrefetch

/-- The prefetch stays within its bounds, and reaches them. -/
structure Adapts (options : Options) : Prop where
  within : ∀ w, Runs options w → Within options w.1.currentPrefetch
  raised : ∀ w event t avg, Runs options w → step options w.1 event = some (t, [avg]) → fast avg →
    w.1.currentPrefetch < options.maxPrefetch → w.1.currentPrefetch < t.currentPrefetch
  lowered : ∀ w event t avg, Runs options w → step options w.1 event = some (t, [avg]) → slow avg →
    options.minPrefetch < w.1.currentPrefetch → t.currentPrefetch < w.1.currentPrefetch
  reachesMax : ∀ w, Runs options w → ∃ windows, ∀ w',
    Reach (logged (step options)) anyStep (w.1, []) w' → (∀ avg ∈ w'.2, fast avg) →
      windows ≤ w'.2.length → w'.1.currentPrefetch = options.maxPrefetch
  reachesMin : ∀ w, Runs options w → ∃ windows, ∀ w',
    Reach (logged (step options)) anyStep (w.1, []) w' → (∀ avg ∈ w'.2, slow avg) →
      windows ≤ w'.2.length → w'.1.currentPrefetch = options.minPrefetch

/-! ## One window -/

theorem newPrefetch_fast {avg : Option ℚ} (h : fast avg) (hlt : c < options.maxPrefetch) :
    newPrefetch options c avg = min ⌊c * options.increaseFactor⌋ options.maxPrefetch := by
  obtain ⟨a, rfl, ha⟩ := h
  rw [newPrefetch, if_pos ⟨by simpa using ha, hlt⟩]

theorem newPrefetch_slow {avg : Option ℚ} (h : slow avg) (hlt : options.minPrefetch < c) :
    newPrefetch options c avg = max ⌊c * options.decreaseFactor⌋ options.minPrefetch := by
  obtain ⟨a, rfl, ha⟩ := h
  have hnot : ¬ a < 100 := by linarith
  rw [newPrefetch, if_neg fun hfast => hnot (by simpa using hfast.1),
    if_pos ⟨by simpa using ha, hlt⟩]

/-- A fast window leaves the largest prefetch, a slow one the smallest. -/
theorem newPrefetch_max {avg : Option ℚ} (h : fast avg) (hle : options.maxPrefetch ≤ c) :
    newPrefetch options c avg = c := by
  obtain ⟨a, rfl, ha⟩ := h
  have hnot : ¬ 500 < a := by linarith
  rw [newPrefetch, if_neg fun hlt => absurd hlt.2 (not_lt.mpr hle),
    if_neg fun hslow => hnot (by simpa using hslow.1)]

theorem newPrefetch_min {avg : Option ℚ} (h : slow avg) (hle : c ≤ options.minPrefetch) :
    newPrefetch options c avg = c := by
  obtain ⟨a, rfl, ha⟩ := h
  have hnot : ¬ a < 100 := by linarith
  rw [newPrefetch, if_neg fun hfast => hnot (by simpa using hfast.1),
    if_neg fun hlt => absurd hlt.2 (not_lt.mpr hle)]

/-- The floor of the increase is above every prefetch but one. -/
theorem lt_increase (h : 2 ≤ c) : c < ⌊(c : ℚ) * (3 / 2)⌋ := by
  have hc : (2 : ℚ) ≤ c := by exact_mod_cast h
  refine Int.lt_iff_add_one_le.mpr (Int.le_floor.mpr ?_)
  push_cast
  linarith

theorem le_increase (h : 1 ≤ c) : c ≤ ⌊(c : ℚ) * (3 / 2)⌋ := by
  have hc : (1 : ℚ) ≤ c := by exact_mod_cast h
  refine Int.le_floor.mpr ?_
  linarith

theorem decrease_lt (h : 1 ≤ c) : ⌊(c : ℚ) * (3 / 4)⌋ < c := by
  have hc : (1 : ℚ) ≤ c := by exact_mod_cast h
  refine Int.floor_lt.mpr ?_
  linarith

theorem Within.newPrefetch (hu : Usual options) (h : Within options c) (avg : Option ℚ) :
    Within options (newPrefetch options c avg) := by
  have hone : 1 ≤ c := hu.positive.trans h.1
  have hup := le_increase hone
  have hdown := decrease_lt hone
  unfold OptimizedPrefetch.newPrefetch
  rw [hu.increaseFactor, hu.decreaseFactor]
  split
  · exact ⟨le_min (h.1.trans hup) (h.1.trans h.2), min_le_right _ _⟩
  · split
    · exact ⟨le_max_right _ _, max_le (hdown.le.trans h.2) (h.1.trans h.2)⟩
    · exact h

/-- A fast window raises a prefetch of at least two. -/
theorem newPrefetch_raises (hu : Usual options) {avg : Option ℚ} (h : fast avg) (htwo : 2 ≤ c)
    (hlt : c < options.maxPrefetch) : c < newPrefetch options c avg := by
  rw [newPrefetch_fast h hlt, hu.increaseFactor]
  exact lt_min (lt_increase htwo) hlt

theorem newPrefetch_lowers (hu : Usual options) {avg : Option ℚ} (h : slow avg)
    (hlt : options.minPrefetch < c) : newPrefetch options c avg < c := by
  rw [newPrefetch_slow h hlt, hu.decreaseFactor]
  exact max_lt (decrease_lt (hu.positive.trans hlt.le)) hlt

/-! ## Runs -/

theorem Within.step (hu : Usual options) {s t : State} {event : Event} {out : List (Option ℚ)}
    (h : Within options s.currentPrefetch) (hs : step options s event = some (t, out)) :
    Within options t.currentPrefetch := by
  rcases step_windows hs with ⟨-, hsame⟩ | ⟨avg, -, hnext⟩
  · exact hsame ▸ h
  · exact hnext ▸ h.newPrefetch hu avg

theorem within_of_runs (hu : Usual options) {w : State × List (Option ℚ)} (h : Runs options w) :
    Within options w.1.currentPrefetch := by
  obtain ⟨now, hr⟩ := h
  refine hr.invariant (I := fun w => Within options w.1.currentPrefetch) ⟨hu.low, hu.high⟩ ?_
  intro w w' event h _ hs
  obtain ⟨t, out, hstep, rfl⟩ := logged_eq_some hs
  exact h.step hu hstep

/-- The window of a step is the one its prefetch follows from. -/
theorem step_window {s t : State} {event : Event} {avg : Option ℚ}
    (hs : step options s event = some (t, [avg])) :
    t.currentPrefetch = newPrefetch options s.currentPrefetch avg := by
  rcases step_windows hs with ⟨hnone, -⟩ | ⟨avg', heq, hnext⟩
  · cases hnone
  · cases heq
    exact hnext

/-- Windows that each bring the prefetch closer to something bring it there. -/
theorem reaches (hu : Usual options) {good : Option ℚ → Prop} (distance : ℤ → Nat)
    (hcloser : ∀ {c avg}, Within options c → good avg →
      distance (newPrefetch options c avg) + 1 ≤ distance c ∨
        distance (newPrefetch options c avg) = 0)
    {w w' : State × List (Option ℚ)} (h : Runs options w)
    (hw : Reach (logged (step options)) anyStep (w.1, []) w') (hgood : ∀ avg ∈ w'.2, good avg)
    (hle : distance w.1.currentPrefetch < w'.2.length) :
    Within options w'.1.currentPrefetch ∧ distance w'.1.currentPrefetch = 0 := by
  have hrank := logged_rank (fun s => distance s.currentPrefetch)
    (I := fun s => Within options s.currentPrefetch) (fun h hs => h.step hu hs)
    (fun {s e t out} h hs hgood => ?_) (within_of_runs hu h) hw hgood
  · obtain ⟨hwithin, hrank⟩ := hrank
    exact ⟨hwithin, by omega⟩
  · rcases step_windows hs with ⟨hout, hsame⟩ | ⟨avg, hout, hnext⟩
    · dsimp only at hout hsame
      rw [hout, hsame]
      exact .inl (Nat.le_refl _)
    · dsimp only at hout hnext
      subst hout
      rw [hnext, List.length_singleton]
      exact hcloser h (hgood avg List.mem_cons_self)

theorem slow_closer (hu : Usual options) {avg : Option ℚ} (h : slow avg) :
    (newPrefetch options c avg - options.minPrefetch).toNat + 1 ≤
        (c - options.minPrefetch).toNat ∨
      (newPrefetch options c avg - options.minPrefetch).toNat = 0 := by
  rcases lt_or_ge options.minPrefetch c with hlt | hge
  · have := newPrefetch_lowers hu h hlt
    omega
  · rw [newPrefetch_min h hge]
    omega

/-- The prefetches that a fast window raises. -/
def NeverOne (options : Options) : Prop := 2 ≤ options.minPrefetch ∨ options.maxPrefetch = 1

theorem NeverOne.two_le (h : NeverOne options) (hu : Usual options) (hwithin : Within options c)
    (hlt : c < options.maxPrefetch) : 2 ≤ c := by
  have hone := hu.positive.trans hwithin.1
  rcases h with htwo | hmax
  · exact htwo.trans hwithin.1
  · omega

theorem fast_closer (hu : Usual options) (hnever : NeverOne options) {avg : Option ℚ}
    (hwithin : Within options c) (h : fast avg) :
    (options.maxPrefetch - newPrefetch options c avg).toNat + 1 ≤
        (options.maxPrefetch - c).toNat ∨
      (options.maxPrefetch - newPrefetch options c avg).toNat = 0 := by
  rcases lt_or_ge c options.maxPrefetch with hlt | hge
  · have := newPrefetch_raises hu h (hnever.two_le hu hwithin hlt) hlt
    omega
  · rw [newPrefetch_max h hge]
    omega

theorem adapts_of_neverOne (hu : Usual options) (hnever : NeverOne options) : Adapts options where
  within _ h := within_of_runs hu h
  raised w event t avg h hs hfast hlt := by
    rw [step_window hs]
    exact newPrefetch_raises hu hfast (hnever.two_le hu (within_of_runs hu h) hlt) hlt
  lowered w event t avg _ hs hslow hlt := by
    rw [step_window hs]
    exact newPrefetch_lowers hu hslow hlt
  reachesMax w h := by
    refine ⟨(options.maxPrefetch - w.1.currentPrefetch).toNat + 1, fun w' hw hfast hle => ?_⟩
    obtain ⟨hwithin, hzero⟩ := reaches hu (fun c => (options.maxPrefetch - c).toNat)
      (fast_closer hu hnever) h hw hfast (Nat.lt_of_succ_le hle)
    have := hwithin.2
    omega
  reachesMin w h := by
    refine ⟨(w.1.currentPrefetch - options.minPrefetch).toNat + 1, fun w' hw hslow hle => ?_⟩
    obtain ⟨hwithin, hzero⟩ := reaches hu (fun c => (c - options.minPrefetch).toNat)
      (fun _ => slow_closer hu) h hw hslow (Nat.lt_of_succ_le hle)
    have := hwithin.1
    omega

/-! ## A prefetch of one -/

/-- No call is measured, and the consumer is there as it is known. -/
structure Idle (s : State) : Prop where
  consumer : ∃ epoch, s.consumerInfo = some ⟨true, epoch⟩ ∧ s.knownEpoch = some epoch
  measured : s.processingTimes = []

/-- The next call closes the window of an idle consumer. -/
theorem Idle.window {s : State} (h : Idle s) (options : Options) (time : ℚ) : ∃ event t,
    step options s event = some (t, [some time]) ∧ Idle t := by
  obtain ⟨epoch, hinfo, hknown⟩ := h.consumer
  have hold : ¬ s.lastOptimizationTime + options.optimizationInterval - s.lastOptimizationTime <
      options.optimizationInterval := by linarith
  have havg : avgProcessingTime (s.processingTimes ++ [time]) = some time := by
    rw [h.measured]
    simp [avgProcessingTime]
  refine ⟨.processed time (s.lastOptimizationTime + options.optimizationInterval),
    ({ s with processingTimes := s.processingTimes ++ [time] }.closeWindow options
      (s.lastOptimizationTime + options.optimizationInterval)).1, ?_, ?_⟩
  · rw [step, State.optimizePrefetch]
    simp only [hinfo, hknown, ne_eq, not_true, if_false, State.closeWindow, if_neg hold, havg]
  · rw [State.closeWindow, if_neg hold]
    exact ⟨⟨epoch, hinfo, hknown⟩, rfl⟩

/-- Slow windows bring the prefetch of an idle consumer down to its minimum. -/
theorem reaches_one (hu : Usual options) (hmin : options.minPrefetch = 1) {n : Nat}
    {w : State × List (Option ℚ)} (h : Runs options w) (hidle : Idle w.1)
    (hn : w.1.currentPrefetch = n + 1) :
    ∃ w', Runs options w' ∧ Idle w'.1 ∧ w'.1.currentPrefetch = 1 := by
  induction n using Nat.strong_induction_on generalizing w with
  | _ n ih =>
    rcases Nat.eq_zero_or_pos n with rfl | hpos
    · exact ⟨w, h, hidle, by simpa using hn⟩
    · obtain ⟨event, t, hs, hidle'⟩ := hidle.window options 501
      have hlower : t.currentPrefetch < w.1.currentPrefetch := by
        rw [step_window hs]
        exact newPrefetch_lowers hu ⟨501, rfl, by norm_num⟩ (by omega)
      have hruns : Runs options (t, w.2 ++ [some 501]) := by
        obtain ⟨now, hr⟩ := h
        exact ⟨now, hr.tail trivial (by rw [logged, hs]; rfl)⟩
      have hwithin := (within_of_runs hu hruns).1
      dsimp only at hwithin
      exact ih (t.currentPrefetch - 1).toNat (by omega) hruns hidle' (by dsimp only; omega)

/-- A fast window leaves a prefetch of one. -/
theorem newPrefetch_one (hu : Usual options) {avg : Option ℚ} (h : fast avg)
    (hlt : 1 < options.maxPrefetch) : newPrefetch options 1 avg = 1 := by
  rw [newPrefetch_fast h hlt, hu.increaseFactor]
  have hfloor : ⌊((1 : ℤ) : ℚ) * (3 / 2)⌋ = 1 := by
    rw [Int.floor_eq_iff]
    norm_num
  rw [hfloor]
  exact min_eq_left hlt.le

theorem not_adapts (hu : Usual options) (hmin : options.minPrefetch = 1)
    (hmax : 1 < options.maxPrefetch) : ¬ Adapts options := by
  intro h
  have hstart : Runs options (({ start options 0 with
      consumerInfo := some ⟨true, 0⟩, knownEpoch := some 0 } : State), []) :=
    ⟨0, .tail (e := .subscribed 0) .refl trivial rfl⟩
  have hlow := hu.low
  obtain ⟨w, hruns, hidle, hone⟩ := reaches_one hu hmin
    (n := (options.initialPrefetch - 1).toNat) hstart ⟨⟨0, rfl, rfl⟩, rfl⟩
    (by change options.initialPrefetch = _; omega)
  obtain ⟨event, t, hs, -⟩ := hidle.window options 0
  have hfast : fast (some 0) := ⟨0, rfl, by norm_num⟩
  have hraised := h.raised w event t _ hruns hs hfast (by rw [hone]; exact hmax)
  rw [step_window hs, hone, newPrefetch_one hu hfast hmax] at hraised
  exact lt_irrefl _ hraised

/-- The prefetch adapts exactly when it cannot be one below its maximum. -/
theorem adapts_iff (hu : Usual options) :
    Adapts options ↔ 2 ≤ options.minPrefetch ∨ options.maxPrefetch = 1 := by
  refine ⟨fun h => ?_, adapts_of_neverOne hu⟩
  by_contra hnot
  have := hu.positive
  have hle := hu.low.trans hu.high
  exact not_adapts hu (by omega) (by omega) h

/-- Of bounds from two on. -/
theorem adapts_iff_two : Adapts { minPrefetch := 2 } ↔ 2 ≤ (2 : ℤ) ∨ (1000 : ℤ) = 1 :=
  adapts_iff ⟨rfl, rfl, by decide, by decide, by decide⟩

/-- A consumer that starts at a prefetch of one is never given more. -/
theorem stuck_at_one :
    Usual { initialPrefetch := 1 } ∧ ¬ Adapts { initialPrefetch := 1 } :=
  have hu : Usual { initialPrefetch := 1 } := ⟨rfl, rfl, by decide, by decide, by decide⟩
  ⟨hu, not_adapts hu rfl (by decide)⟩

end OptimizedPrefetch
end RabbitMQ

import RabbitMQ.Resilience.RateLimiter.Admissions

/-! What a fixed window admits: in each window of the clock no more than the limit, and no less than
that lets in. The counter of a key says what its window has admitted, whether it was rolled over by a
check, passed over by a read or collected by a sweep. -/

namespace RabbitMQ

open Meter RateLimiter Observation

namespace FixedWindowStrategy

/-- The window of an instant. -/
def window (windowMs t : ℚ) : ℤ := ⌊t / windowMs⌋

/-- The admissions of a key in a window. -/
def ofWindow (windowMs : ℚ) (key : String) (k : ℤ) (a : Admission) : Bool :=
  a.key = key ∧ window windowMs a.now = k

variable {s : FixedWindowStrategy} {t now cost : ℚ} {key : String} {admissions : List Admission}
  {calls : List Limiter.Call}

/-- Windows are aligned to the epoch. -/
theorem window_eq_iff {windowMs : ℚ} (hwindow : 0 < windowMs) {k : ℤ} :
    window windowMs t = k ↔ k * windowMs ≤ t ∧ t < (k + 1) * windowMs := by
  rw [window, Int.floor_eq_iff, le_div_iff₀ hwindow, div_lt_iff₀ hwindow]

theorem windowStart_eq_iff (windowMs t now : ℚ) :
    windowStart windowMs t = windowStart windowMs now ↔ window windowMs t = window windowMs now := by
  constructor
  · intro heq
    rcases eq_or_ne windowMs 0 with hzero | hne
    · rw [window, window, hzero, div_zero, div_zero]
    · have hcast : (⌊t / windowMs⌋ : ℚ) = ⌊now / windowMs⌋ := mul_right_cancel₀ hne heq
      exact_mod_cast hcast
  · intro heq
    rw [windowStart, windowStart, show ⌊t / windowMs⌋ = ⌊now / windowMs⌋ from heq]

/-- The counters count what the windows have admitted. -/
structure Counted (s : FixedWindowStrategy) (t : ℚ) (admissions : List Admission) : Prop where
  kept : Kept t s
  past : ∀ a ∈ admissions, a.now ≤ t
  costs : ∀ a ∈ admissions, 0 ≤ a.cost
  used : ∀ key now, t ≤ now →
    s.used key now = total admissions (ofWindow s.windowMs key (window s.windowMs now))
  within : ∀ key k, total admissions (ofWindow s.windowMs key k) ≤ max 0 s.maxRequests

theorem counted_new (maxRequests windowMs t : ℚ) : Counted (new maxRequests windowMs) t [] where
  kept := kept_new _ _ _
  past := nofun
  costs := nofun
  used _ _ _ := rfl
  within _ _ := le_max_left _ _

theorem Counted.later (h : Counted s t admissions) (hle : t ≤ now) : Counted s now admissions where
  kept := h.kept.later hle
  past a ha := (h.past a ha).trans hle
  costs := h.costs
  used key later hlater := h.used key later (hle.trans hlater)
  within := h.within

/-- Nothing of a window that has just begun was admitted before. -/
theorem Counted.unused (h : Counted s t admissions) {later : ℚ} (hlater : t ≤ later)
    (hne : window s.windowMs t ≠ window s.windowMs later) (key : String) :
    total admissions (ofWindow s.windowMs key (window s.windowMs later)) = 0 := by
  refine total_eq_zero fun a ha hof => hne ?_
  obtain ⟨-, hwindow⟩ := of_decide_eq_true hof
  have hstart := (windowStart_eq_iff _ _ _).mpr hwindow
  -- the window of `t` lies between that of the admission and the later one
  have hbefore := windowStart_mono s.windowMs (h.past a ha)
  have hafter := windowStart_mono s.windowMs hlater
  exact (windowStart_eq_iff _ _ _).mp (le_antisymm hafter (hstart.ge.trans hbefore))

/-- A store that reads the same counts the same. -/
theorem Counted.of_agree (h : Counted s now admissions) {s' : FixedWindowStrategy}
    (hkept : Kept now s') (hmax : s'.maxRequests = s.maxRequests) (hwindow : s'.windowMs = s.windowMs)
    (hagree : Agree (level s.windowMs) 0 now s'.counters s.counters) :
    Counted s' now admissions where
  kept := hkept
  past := h.past
  costs := h.costs
  used key later hlater := by
    rw [hwindow, ← h.used key later hlater]
    have hreads := hagree key later hlater
    rwa [FixedWindowStrategy.used, hwindow]
  within := by
    rw [hmax, hwindow]
    exact h.within

/-- A check that is granted is counted. -/
theorem Counted.admits (h : Counted s t admissions) (hle : t ≤ now) (hcost : 0 ≤ cost)
    (hfits : s.used key now + cost ≤ s.maxRequests) (wait : ℚ) :
    Counted (s.check key cost now).2 now (admissions ++ [⟨key, cost, now, wait⟩]) := by
  have hnow := h.later hle
  have hkept : Kept now (s.check key cost now).2 := h.kept.check hle
  have hof : ∀ j k, ofWindow s.windowMs j k ⟨key, cost, now, wait⟩ =
      decide (key = j ∧ window s.windowMs now = k) := fun _ _ => rfl
  rw [check_admits hfits] at hkept ⊢
  constructor
  case kept => exact hkept
  case past =>
    intro a ha
    rcases List.mem_append.mp ha with ha | ha
    · exact hnow.past a ha
    · cases List.mem_singleton.mp ha
      exact le_rfl
  case costs =>
    intro a ha
    rcases List.mem_append.mp ha with ha | ha
    · exact h.costs a ha
    · cases List.mem_singleton.mp ha
      exact hcost
  case used =>
    intro j later hlater
    have hbefore := hnow.used j later hlater
    dsimp only
    rw [total_append, total_singleton, hof, FixedWindowStrategy.used, reading_set]
    by_cases hj : j = key
    · subst hj
      rw [if_pos rfl]
      by_cases hsame : window s.windowMs now = window s.windowMs later
      · rw [level_of_eq ((windowStart_eq_iff _ _ _).mpr hsame), if_pos (decide_eq_true ⟨rfl, hsame⟩),
          ← hsame, ← hnow.used j now le_rfl]
      · have hover := mt (windowStart_eq_iff s.windowMs now later).mp hsame
        rw [level, if_neg hover, hnow.unused hlater hsame, if_neg (by simp [hsame]), add_zero]
    · rw [if_neg hj, if_neg (by simp [Ne.symm hj]), add_zero]
      exact hbefore
  case within =>
    intro j k
    rw [total_append, total_singleton, hof]
    by_cases hin : key = j ∧ window s.windowMs now = k
    · obtain ⟨rfl, rfl⟩ := hin
      rw [if_pos (decide_eq_true ⟨rfl, rfl⟩), ← hnow.used key now le_rfl]
      exact hfits.trans (le_max_right _ _)
    · rw [if_neg (by simpa using hin), add_zero]
      exact h.within j k

theorem Counted.refuses (h : Counted s t admissions) (hle : t ≤ now)
    (hover : s.maxRequests < s.used key now + cost) :
    Counted (s.check key cost now).2 now admissions := by
  obtain ⟨hmax, hwindow⟩ := check_config s key cost now
  refine (h.later hle).of_agree (h.kept.check hle) hmax hwindow ?_
  have hagree := h.kept.agree_check hle key cost
  rwa [if_neg (not_le.mpr hover)] at hagree

/-- One step of a run. -/
theorem Counted.step (h : Counted s t admissions) {call : Limiter.Call} (hle : t ≤ call.now)
    (hcost : call.CostNonneg) : ∃ s', (Limiter.step (.fixedWindow s) call).1 = .fixedWindow s' ∧
      s'.maxRequests = s.maxRequests ∧ s'.windowMs = s.windowMs ∧
      Counted s' call.now (admissions ++ (Limiter.step (.fixedWindow s) call).2.toList) := by
  obtain ⟨now, operation⟩ := call
  cases operation with
  | check key cost =>
    have hnonneg : 0 ≤ cost := hcost key cost rfl
    obtain ⟨hmax, hwindow⟩ := check_config s key cost now
    refine ⟨(s.check key cost now).2, rfl, hmax, hwindow, ?_⟩
    have hstep : (Limiter.step (.fixedWindow s) ⟨now, .check key cost⟩).2 =
        if (s.check key cost now).1 then some ⟨key, cost, now, 0⟩ else none := rfl
    rw [hstep, check_fst]
    rcases le_or_gt (s.used key now + cost) s.maxRequests with hfits | hover
    · rw [if_pos (decide_eq_true hfits)]
      exact h.admits hle hnonneg hfits 0
    · rw [if_neg (by simpa using hover), Option.toList_none, List.append_nil]
      exact h.refuses hle hover
  | remaining key =>
    refine ⟨s, rfl, rfl, rfl, ?_⟩
    rw [show (Limiter.step (.fixedWindow s) ⟨now, .remaining key⟩).2.toList = [] from rfl,
      List.append_nil]
    exact h.later hle
  | cleanup =>
    refine ⟨s.cleanup now, rfl, rfl, rfl, ?_⟩
    rw [show (Limiter.step (.fixedWindow s) ⟨now, .cleanup⟩).2.toList = [] from rfl,
      List.append_nil]
    exact (h.later hle).of_agree (h.kept.cleanup hle) rfl rfl (h.kept.agree_cleanup hle)

theorem Counted.run (h : Counted s t admissions) (hstart : ∀ call ∈ calls, t ≤ call.now)
    (hsorted : calls.Pairwise fun call call' => call.now ≤ call'.now)
    (hcosts : ∀ call ∈ calls, call.CostNonneg) {now : ℚ} (hle : t ≤ now)
    (hend : ∀ call ∈ calls, call.now ≤ now) : ∃ s', (Limiter.fixedWindow s).run calls = .fixedWindow s' ∧
      s'.maxRequests = s.maxRequests ∧ s'.windowMs = s.windowMs ∧
      Counted s' now (admissions ++ (Limiter.fixedWindow s).admissions calls) := by
  have hruns := Observation.answers_invariant
    (I := fun t limiter admissions => ∃ s', limiter = Limiter.fixedWindow s' ∧
      s'.maxRequests = s.maxRequests ∧ s'.windowMs = s.windowMs ∧ Counted s' t admissions)
    (fun h hle hcost => by
      obtain ⟨s₁, rfl, hmax, hwindow, h⟩ := h
      obtain ⟨s₂, hstep, hmax', hwindow', hcounted⟩ := h.step hle hcost
      exact ⟨s₂, hstep, hmax'.trans hmax, hwindow'.trans hwindow, hcounted⟩)
    ⟨s, rfl, rfl, rfl, h⟩ hstart hsorted hcosts
  obtain ⟨t', hlast, s', hrun, hmax, hwindow, hcounted⟩ := hruns
  exact ⟨s', hrun, hmax, hwindow, hcounted.later (hlast now hle hend)⟩

/-! ## The bound -/

/-- An interval no longer than a window meets two of them at most. -/
theorem window_of_interval {windowMs a b : ℚ} (hshort : b - a ≤ windowMs) (hle : a ≤ t ∧ t ≤ b) :
    window windowMs t = window windowMs a ∨ window windowMs t = window windowMs a + 1 := by
  obtain ⟨ha, hb⟩ := hle
  rcases le_or_gt windowMs 0 with hneg | hpos
  · have heq : t = a := by linarith
    exact .inl (congrArg _ heq)
  · have hlow : window windowMs a ≤ window windowMs t :=
      Int.floor_mono (div_le_div_of_nonneg_right ha hpos.le)
    have hhigh : window windowMs t ≤ window windowMs a + 1 := by
      rw [window, window, ← Int.floor_add_one, ← div_self hpos.ne', ← add_div]
      exact Int.floor_mono (div_le_div_of_nonneg_right (by linarith) hpos.le)
    omega

/-- A run of a fixed window admits in each window of a key no more than the limit, refuses only what
would exceed it, and admits no more than twice the limit in an interval that is no longer than a
window. A limit that is negative admits nothing. -/
theorem bounded (maxRequests windowMs : ℚ) {calls : List Limiter.Call}
    (hsorted : calls.Pairwise fun call call' => call.now ≤ call'.now)
    (hcosts : ∀ call ∈ calls, call.CostNonneg) (key : String) :
    let limiter := Limiter.fixedWindow (new maxRequests windowMs)
    (∀ k, total (limiter.admissions calls) (ofWindow windowMs key k) ≤ max 0 maxRequests) ∧
    (∀ cost now, (∀ call ∈ calls, call.now ≤ now) →
      ((limiter.run calls).check key cost now).1.allowed = false →
        maxRequests < total (limiter.admissions calls)
          (ofWindow windowMs key (window windowMs now)) + cost) ∧
    ∀ a b, b - a ≤ windowMs → total (limiter.admissions calls)
      (fun admission => admission.key = key ∧ a ≤ admission.now ∧ admission.now ≤ b) ≤
        2 * max 0 maxRequests := by
  intro limiter
  have hcounted : ∀ now, (∀ call ∈ calls, call.now ≤ now) → ∃ s',
      limiter.run calls = .fixedWindow s' ∧ s'.maxRequests = maxRequests ∧ s'.windowMs = windowMs ∧
        Counted s' now (limiter.admissions calls) := by
    intro now hend
    cases calls with
    | nil => exact ⟨_, rfl, rfl, rfl, counted_new _ _ _⟩
    | cons call calls =>
      have hstart := le_of_sorted hsorted
      exact (counted_new maxRequests windowMs call.now).run hstart hsorted hcosts
        (hend call List.mem_cons_self) hend
  obtain ⟨last, hlast⟩ := Limiter.exists_after calls
  obtain ⟨s', -, hmax, hwindow, hcounts⟩ := hcounted last hlast
  have hwithin := hcounts.within key
  rw [hmax, hwindow] at hwithin
  refine ⟨hwithin, fun cost now hend hrefused => ?_, fun a b hshort => ?_⟩
  · obtain ⟨s₁, hrun, hmax₁, hwindow₁, hcounts₁⟩ := hcounted now hend
    have hcheck : (s₁.check key cost now).1 = false := by
      rw [hrun] at hrefused
      exact hrefused
    rw [check_fst, hcounts₁.used key now le_rfl, hmax₁, hwindow₁] at hcheck
    exact not_le.mp (of_decide_eq_false hcheck)
  · rw [two_mul]
    refine le_trans (total_le_add hcounts.costs fun admission _ hin => ?_)
      (add_le_add (hwithin (window windowMs a)) (hwithin (window windowMs a + 1)))
    obtain ⟨hkey, hinterval⟩ := of_decide_eq_true hin
    exact (window_of_interval hshort hinterval).imp (fun heq => decide_eq_true ⟨hkey, heq⟩)
      fun heq => decide_eq_true ⟨hkey, heq⟩

end FixedWindowStrategy
end RabbitMQ

import RabbitMQ.Resilience.RateLimiter.History

/-! When a leaky bucket releases what it admits. A check waits for the occupancy of its key, but the
entries leave the log a window after they were admitted, and not when they are released: what leaves
between two admissions is no longer waited for. -/

namespace RabbitMQ

open RateLimiter Observation WindowLogStrategy

namespace RateLimiter

/-- When the check of an admission resolves. -/
def Admission.release (a : Admission) : ℚ := a.now + a.wait

end RateLimiter

namespace LeakyBucketStrategy

variable {s : LeakyBucketStrategy} {t now cost : ℚ} {key : String}
  {admissions earlier later : List Admission} {a b : Admission}

/-- What has left the log between two admissions of a key: of the entries before the first, and of
its own. -/
def expired (windowMs : ℚ) (earlier : List Admission) (a b : Admission) : ℚ :=
  total earlier (fun e => a.now - e.now ≤ windowMs ∧ ¬ b.now - e.now ≤ windowMs) +
    if b.now - a.now ≤ windowMs then 0 else a.cost

/-- Admissions leave in the order in which they came, and no faster than the rate. -/
def Paced (leakRateMs : ℚ) (admissions : List Admission) : Prop :=
  ∀ earlier a b later, admissions = earlier ++ a :: b :: later →
    a.release + a.cost * leakRateMs ≤ b.release

/-- What leaves the log between two admissions would have leaked by then. -/
def Leaked (windowMs leakRateMs : ℚ) (admissions : List Admission) : Prop :=
  ∀ earlier a b later, admissions = earlier ++ a :: b :: later →
    expired windowMs earlier a b * leakRateMs ≤ b.now - a.now

/-- The admissions of a key. -/
def ofKey (key : String) (admissions : List Admission) : List Admission :=
  admissions.filter (·.key = key)

/-- The pause of a check that finds an occupancy. -/
def pause (leakRateMs occupancy : ℚ) : ℚ :=
  if occupancy * leakRateMs > 0 then occupancy * leakRateMs else 0

/-- Every admission has waited for what it found. -/
structure Waits (s : LeakyBucketStrategy) (t : ℚ) (admissions : List Admission) : Prop where
  tracks : Tracks s.toWindowLogStrategy t admissions
  sorted : admissions.Pairwise fun a b => a.now ≤ b.now
  waits : ∀ key earlier a later, ofKey key admissions = earlier ++ a :: later →
    a.wait = pause s.leakRateMs (total earlier fun e => a.now - e.now ≤ s.windowMs)

theorem total_ofKey (windowMs : ℚ) (key : String) (now : ℚ) :
    total (ofKey key admissions) (fun e => now - e.now ≤ windowMs) =
      total admissions (inWindow windowMs key now) := by
  rw [total, ofKey, List.filter_filter, total]
  refine congrArg (fun l : List Admission => (l.map (·.cost)).sum) (List.filter_congr fun e _ => ?_)
  rw [inWindow, Bool.decide_and, Bool.and_comm]

theorem concat_eq_append {l : List Admission} (h : l ++ [b] = earlier ++ a :: later) :
    (later = [] ∧ a = b ∧ earlier = l) ∨ ∃ later', l = earlier ++ a :: later' := by
  rcases List.eq_nil_or_concat later with rfl | ⟨later', x, rfl⟩
  · obtain ⟨rfl, heq⟩ := List.append_inj' h rfl
    cases heq
    exact .inl ⟨rfl, rfl, rfl⟩
  · rw [List.concat_eq_append, ← List.cons_append, ← List.append_assoc] at h
    obtain ⟨rfl, -⟩ := List.append_inj' h rfl
    exact .inr ⟨later', rfl⟩

theorem waits_new (maxRequests windowMs queueLimit t : ℚ) :
    Waits (new maxRequests windowMs queueLimit) t [] where
  tracks := tracks_new _ _ _
  sorted := .nil
  waits _ _ _ _ heq := by
    have hlength := congrArg List.length heq
    simp [ofKey] at hlength

/-! ## Runs -/

theorem check_some {occupancy : ℚ} (h : (s.occupy key cost now).1 = some occupancy) :
    s.check key cost now = (true, pause s.leakRateMs occupancy,
      { s with toWindowLogStrategy := (s.occupy key cost now).2 }) := by
  rw [check]
  generalize s.occupy key cost now = occupied at h ⊢
  obtain ⟨before, log⟩ := occupied
  cases h
  rfl

theorem check_none (h : (s.occupy key cost now).1 = none) : s.check key cost now =
    (false, 0, { s with toWindowLogStrategy := (s.occupy key cost now).2 }) := by
  rw [check]
  generalize s.occupy key cost now = occupied at h ⊢
  obtain ⟨before, log⟩ := occupied
  cases h
  rfl

/-- A log that admits nothing more. -/
theorem Waits.of_tracks (h : Waits s t admissions) {log : WindowLogStrategy}
    (hwindow : log.windowMs = s.windowMs) (htracks : Tracks log now admissions) :
    Waits { s with toWindowLogStrategy := log } now admissions where
  tracks := htracks
  sorted := h.sorted
  waits key earlier a later heq := by
    dsimp only
    rw [hwindow]
    exact h.waits key earlier a later heq

theorem Waits.admits (h : Waits s t admissions) (hle : t ≤ now) {log : WindowLogStrategy}
    (hwindow : log.windowMs = s.windowMs) {wait : ℚ}
    (hwait : wait = pause s.leakRateMs (total admissions (inWindow s.windowMs key now)))
    (htracks : Tracks log now (admissions ++ [⟨key, cost, now, wait⟩])) :
    Waits { s with toWindowLogStrategy := log } now (admissions ++ [⟨key, cost, now, wait⟩]) where
  tracks := htracks
  sorted := by
    refine List.pairwise_append.mpr ⟨h.sorted, List.pairwise_singleton _ _, fun a ha b hb => ?_⟩
    cases List.mem_singleton.mp hb
    exact (h.tracks.past a ha).trans hle
  waits := by
    intro j earlier a later heq
    dsimp only
    rw [hwindow]
    rw [ofKey, List.filter_append, List.filter_cons] at heq
    by_cases hkey : key = j
    · subst hkey
      rw [if_pos (decide_eq_true rfl)] at heq
      rcases concat_eq_append heq with ⟨-, rfl, rfl⟩ | ⟨later', heq⟩
      · rw [hwait]
        exact congrArg (pause s.leakRateMs) (total_ofKey s.windowMs key now).symm
      · exact h.waits key earlier a later' heq
    · rw [if_neg (by simpa using hkey)] at heq
      rw [List.filter_nil, List.append_nil] at heq
      exact h.waits j earlier a later heq

theorem Waits.step (h : Waits s t admissions) {call : Limiter.Call} (hle : t ≤ call.now)
    (hcost : call.CostNonneg) : ∃ s', (Limiter.step (.leakyBucket s) call).1 = .leakyBucket s' ∧
      s'.windowMs = s.windowMs ∧ s'.leakRateMs = s.leakRateMs ∧
      Waits s' call.now (admissions ++ (Limiter.step (.leakyBucket s) call).2.toList) := by
  obtain ⟨now, operation⟩ := call
  cases operation with
  | check key cost =>
    obtain ⟨-, hwindow, hcases⟩ := h.tracks.occupy hle key (hcost key cost rfl)
    have hstep : Limiter.step (.leakyBucket s) ⟨now, .check key cost⟩ =
        (.leakyBucket (s.check key cost now).2.2, if (s.check key cost now).1 then
          some ⟨key, cost, now, (s.check key cost now).2.1⟩ else none) := rfl
    rw [hstep]
    rcases hcases with ⟨-, hbefore, htracks⟩ | ⟨-, hbefore, htracks⟩
    · rw [check_some hbefore]
      exact ⟨_, rfl, hwindow, rfl, h.admits hle hwindow rfl (htracks _)⟩
    · rw [check_none hbefore]
      refine ⟨_, rfl, hwindow, rfl, ?_⟩
      exact (List.append_nil admissions).symm ▸ h.of_tracks hwindow htracks
  | remaining key =>
    have hwindow := (s.toWindowLogStrategy.remaining_config key now).2
    refine ⟨_, rfl, hwindow, rfl, ?_⟩
    exact (List.append_nil admissions).symm ▸ h.of_tracks hwindow (h.tracks.remaining hle key)
  | cleanup =>
    obtain ⟨-, -, hwindow, -⟩ := h.tracks.kept.cleanup now
    refine ⟨_, rfl, hwindow, rfl, ?_⟩
    exact (List.append_nil admissions).symm ▸ h.of_tracks hwindow (h.tracks.cleanup hle)

theorem Waits.run (h : Waits s t admissions) {calls : List Limiter.Call}
    (hstart : ∀ call ∈ calls, t ≤ call.now)
    (hsorted : calls.Pairwise fun call call' => call.now ≤ call'.now)
    (hcosts : ∀ call ∈ calls, call.CostNonneg) : ∃ t' s', s'.windowMs = s.windowMs ∧
      s'.leakRateMs = s.leakRateMs ∧
      Waits s' t' (admissions ++ (Limiter.leakyBucket s).admissions calls) := by
  refine (Observation.answers_invariant
    (I := fun t limiter admissions => ∃ s', limiter = Limiter.leakyBucket s' ∧
      s'.windowMs = s.windowMs ∧
      s'.leakRateMs = s.leakRateMs ∧ Waits s' t admissions)
    (fun h hle hcost => ?_) ⟨s, rfl, rfl, rfl, h⟩ hstart hsorted hcosts).imp
      fun t' ⟨_, s', _, hs'⟩ => ⟨s', hs'⟩
  obtain ⟨s₁, rfl, hwindow, hrate, h⟩ := h
  obtain ⟨s₂, hstep, hwindow', hrate', hwaits⟩ := h.step hle hcost
  exact ⟨s₂, hstep, hwindow'.trans hwindow, hrate'.trans hrate, hwaits⟩

/-! ## The pace -/

theorem pause_of_pos {leakRateMs occupancy : ℚ} (hrate : 0 < leakRateMs) (hnonneg : 0 ≤ occupancy) :
    pause leakRateMs occupancy = occupancy * leakRateMs := by
  rw [pause]
  split
  · rfl
  · next hzero => exact le_antisymm (mul_nonneg hnonneg hrate.le) (not_lt.mp hzero)

theorem pause_of_nonpos {leakRateMs occupancy : ℚ} (hrate : leakRateMs ≤ 0)
    (hnonneg : 0 ≤ occupancy) : pause leakRateMs occupancy = 0 :=
  if_neg (not_lt.mpr (mul_nonpos_of_nonneg_of_nonpos hnonneg hrate))

/-- What a check finds is what the one before it left, less what has expired since. -/
theorem occupancy_eq (windowMs : ℚ) (earlier : List Admission) (hle : a.now ≤ b.now) :
    total earlier (fun e => a.now - e.now ≤ windowMs) + a.cost =
      total (earlier ++ [a]) (fun e => b.now - e.now ≤ windowMs) + expired windowMs earlier a b := by
  have hsplit := @total_split earlier (fun e => a.now - e.now ≤ windowMs)
    (fun e => b.now - e.now ≤ windowMs) fun e _ hlive => by
      have hlive := of_decide_eq_true hlive
      exact decide_eq_true (by linarith)
  have hexpired : total earlier (fun e => decide (a.now - e.now ≤ windowMs) ∧
      ¬ decide (b.now - e.now ≤ windowMs)) =
        total earlier fun e => a.now - e.now ≤ windowMs ∧ ¬ b.now - e.now ≤ windowMs := by
    refine total_congr fun e _ => ?_
    simp only [decide_eq_true_eq]
  rw [hsplit, hexpired, total_append, total_singleton, expired]
  by_cases hlive : b.now - a.now ≤ windowMs
  · rw [if_pos (decide_eq_true hlive), if_pos hlive]
    ring
  · rw [if_neg (by simpa using hlive), if_neg hlive]
    ring

/-- Two admissions of a key that follow one another. -/
theorem Waits.paced_iff (h : Waits s t admissions)
    (heq : ofKey key admissions = earlier ++ a :: b :: later) :
    a.release + a.cost * s.leakRateMs ≤ b.release ↔
      expired s.windowMs earlier a b * s.leakRateMs ≤ b.now - a.now := by
  have hmem : ∀ e ∈ earlier ++ a :: b :: later, e ∈ admissions := fun e he =>
    (List.mem_filter.mp (heq ▸ he)).1
  have hcosts : ∀ e ∈ earlier ++ a :: b :: later, 0 ≤ e.cost := fun e he =>
    h.tracks.costs e (hmem e he)
  have hearlier : ∀ e ∈ earlier, 0 ≤ e.cost := fun e he => hcosts e (List.mem_append_left _ he)
  have hcost : 0 ≤ a.cost := hcosts a (List.mem_append_right _ List.mem_cons_self)
  have hsorted := h.sorted.sublist (List.filter_sublist (p := (·.key = key)))
  have hle : a.now ≤ b.now := by
    rw [show admissions.filter (·.key = key) = _ from heq] at hsorted
    exact (List.pairwise_cons.mp (List.pairwise_append.mp hsorted).2.1).1 b List.mem_cons_self
  have heq' : ofKey key admissions = (earlier ++ [a]) ++ b :: later := by
    rw [heq, List.append_assoc]
    rfl
  have hwait := h.waits key earlier a (b :: later) heq
  have hwait' := h.waits key (earlier ++ [a]) b later heq'
  have hfound := total_nonneg hearlier fun e => a.now - e.now ≤ s.windowMs
  have hfound' : 0 ≤ total (earlier ++ [a]) fun e => b.now - e.now ≤ s.windowMs := by
    refine total_nonneg (fun e he => ?_) _
    rcases List.mem_append.mp he with he | he
    · exact hearlier e he
    · cases List.mem_singleton.mp he
      exact hcost
  have hexpired : 0 ≤ expired s.windowMs earlier a b := by
    refine add_nonneg (total_nonneg hearlier _) ?_
    split
    · exact le_rfl
    · exact hcost
  rw [Admission.release, Admission.release, hwait, hwait']
  rcases lt_or_ge 0 s.leakRateMs with hrate | hrate
  · have hsame := congrArg (· * s.leakRateMs) (occupancy_eq s.windowMs earlier hle)
    rw [add_mul, add_mul] at hsame
    rw [pause_of_pos hrate hfound, pause_of_pos hrate hfound']
    constructor
    · intro hpaced
      linarith
    · intro hleaked
      linarith
  · have hslow := mul_nonpos_of_nonneg_of_nonpos hcost hrate
    have hleaked := mul_nonpos_of_nonneg_of_nonpos hexpired hrate
    rw [pause_of_nonpos hrate hfound, pause_of_nonpos hrate hfound']
    exact iff_of_true (by linarith) (by linarith)

/-- A leaky bucket keeps its pace exactly when what leaves the log between two admissions of a key
would have leaked by then. -/
theorem paced_iff_expired (maxRequests windowMs queueLimit : ℚ) {calls : List Limiter.Call}
    (hsorted : calls.Pairwise fun call call' => call.now ≤ call'.now)
    (hcosts : ∀ call ∈ calls, call.CostNonneg) (key : String) :
    let admissions := ofKey key
      ((Limiter.leakyBucket (new maxRequests windowMs queueLimit)).admissions calls)
    Paced (windowMs / maxRequests) admissions ↔
      Leaked windowMs (windowMs / maxRequests) admissions := by
  intro admissions
  have hwaits : ∃ t' s', s'.windowMs = windowMs ∧ s'.leakRateMs = windowMs / maxRequests ∧
      Waits s' t' ((Limiter.leakyBucket (new maxRequests windowMs queueLimit)).admissions calls) := by
    cases calls with
    | nil => exact ⟨0, _, rfl, rfl, waits_new maxRequests windowMs queueLimit 0⟩
    | cons call calls =>
      exact (waits_new maxRequests windowMs queueLimit call.now).run (le_of_sorted hsorted) hsorted
        hcosts
  obtain ⟨t', s', hwindow, hrate, hwaits⟩ := hwaits
  have hpair : ∀ earlier a b later, admissions = earlier ++ a :: b :: later →
      (a.release + a.cost * (windowMs / maxRequests) ≤ b.release ↔
        expired windowMs earlier a b * (windowMs / maxRequests) ≤ b.now - a.now) := by
    intro earlier a b later heq
    have hiff := hwaits.paced_iff heq
    rwa [hwindow, hrate] at hiff
  constructor
  · intro hpaced earlier a b later heq
    exact (hpair earlier a b later heq).mp (hpaced earlier a b later heq)
  · intro hleaked earlier a b later heq
    exact (hpair earlier a b later heq).mpr (hleaked earlier a b later heq)

end LeakyBucketStrategy
end RabbitMQ

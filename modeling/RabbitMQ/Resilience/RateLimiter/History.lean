import Mathlib.Data.List.TakeWhile
import RabbitMQ.Resilience.RateLimiter.Admissions

/-! A window log keeps no more of the past than it needs. `NaiveLog` keeps all of it, and sums up what
is still in the window for every question; the log gives the same answers. -/

namespace RabbitMQ

open Meter RateLimiter Observation

namespace WindowLogStrategy

inductive Operation where
  | occupy (key : String) (cost : ℚ)
  | remaining (key : String)
  | cleanup
  deriving DecidableEq

/-- An operation of a window log at an instant. -/
structure Call where
  now : ℚ
  operation : Operation
  deriving DecidableEq

inductive Answer where
  /-- the occupancy before the entry joined, or `none` -/
  | occupancy (before : Option ℚ)
  | remaining (tokens : ℚ)
  deriving DecidableEq

def step (s : WindowLogStrategy) (call : Call) : WindowLogStrategy × Option Answer :=
  match call.operation with
  | .occupy key cost =>
    let (before, s) := s.occupy key cost call.now
    (s, some (.occupancy before))
  | .remaining key =>
    let (tokens, s) := s.remaining key call.now
    (s, some (.remaining tokens))
  | .cleanup => (s.cleanup call.now, none)

/-- An entry has a cost that is not negative. -/
def Call.CostNonneg (call : Call) : Prop :=
  ∀ key cost, call.operation = .occupy key cost → 0 ≤ cost

/-- The admissions of a key that are in the window. -/
def inWindow (windowMs : ℚ) (key : String) (now : ℚ) (a : Admission) : Bool :=
  a.key = key ∧ now - a.now ≤ windowMs

end WindowLogStrategy

open WindowLogStrategy

/-- Every admission there ever was. -/
structure NaiveLog where
  limit : ℚ
  windowMs : ℚ
  admissions : List Admission

namespace NaiveLog

def new (limit windowMs : ℚ) : NaiveLog := ⟨limit, windowMs, []⟩

/-- What the admissions of the key in the window have cost. -/
def occupancy (n : NaiveLog) (key : String) (now : ℚ) : ℚ :=
  total n.admissions (inWindow n.windowMs key now)

def step (n : NaiveLog) (call : WindowLogStrategy.Call) : NaiveLog × Option Answer :=
  match call.operation with
  | .occupy key cost =>
    if n.occupancy key call.now + cost ≤ n.limit then
      ({ n with admissions := n.admissions ++ [⟨key, cost, call.now, 0⟩] },
        some (.occupancy (some (n.occupancy key call.now))))
    else (n, some (.occupancy none))
  | .remaining key => (n, some (.remaining (n.limit - n.occupancy key call.now)))
  | .cleanup => (n, none)

end NaiveLog

namespace WindowLogStrategy

variable {s : WindowLogStrategy} {t now cost : ℚ} {key : String} {admissions : List Admission}

/-- The entry that an admission leaves in the log. -/
def entry (a : Admission) : LogEntry := ⟨a.now, a.cost⟩

/-- The admissions of a key in an interval. -/
def inInterval (key : String) (first last : ℚ) (a : Admission) : Bool :=
  a.key = key ∧ first ≤ a.now ∧ a.now ≤ last

/-- The log of a key is what of its admissions is in the window. -/
structure Tracks (s : WindowLogStrategy) (t : ℚ) (admissions : List Admission) : Prop where
  kept : Kept s
  past : ∀ a ∈ admissions, a.now ≤ t
  costs : ∀ a ∈ admissions, 0 ≤ a.cost
  live : ∀ key now, t ≤ now →
    s.live key now = (admissions.filter (inWindow s.windowMs key now)).map entry
  within : ∀ key first last, last - first ≤ s.windowMs →
    total admissions (inInterval key first last) ≤ max 0 s.limit

theorem tracks_new (limit windowMs t : ℚ) : Tracks (new limit windowMs) t [] where
  kept := kept_new _ _
  past := nofun
  costs := nofun
  live _ _ _ := rfl
  within _ _ _ _ := le_max_left _ _

theorem Tracks.later (h : Tracks s t admissions) (hle : t ≤ now) : Tracks s now admissions where
  kept := h.kept
  past a ha := (h.past a ha).trans hle
  costs := h.costs
  live key later hlater := h.live key later (hle.trans hlater)
  within := h.within

/-- The running total is what the admissions in the window have cost. -/
theorem Tracks.sum_live (h : Tracks s t admissions) (hle : t ≤ now) (key : String) :
    sum (s.live key now) = total admissions (inWindow s.windowMs key now) := by
  rw [h.live key now hle, sum, List.map_map, total]
  rfl

theorem Tracks.of_agree (h : Tracks s now admissions) {s' : WindowLogStrategy} (hkept : Kept s')
    (hlimit : s'.limit = s.limit) (hwindow : s'.windowMs = s.windowMs)
    (hagree : Agree (level s.windowMs) [] now s'.windows s.windows) : Tracks s' now admissions where
  kept := hkept
  past := h.past
  costs := h.costs
  live key later hlater := by
    have hreads := hagree key later hlater
    rw [hwindow, ← h.live key later hlater]
    rwa [WindowLogStrategy.live, hwindow]
  within := by
    rw [hlimit, hwindow]
    exact h.within

/-- An entry that joins a log stays in it longer than the others. -/
theorem dropWhile_concat {windowMs later : ℚ} {entries : List LogEntry}
    (hpast : ∀ e ∈ entries, e.timestamp ≤ now) (cost : ℚ) :
    (entries ++ [LogEntry.mk now cost]).dropWhile (Expired windowMs later) =
      entries.dropWhile (Expired windowMs later) ++
        if later - now ≤ windowMs then [⟨now, cost⟩] else [] := by
  have hlast : [(⟨now, cost⟩ : LogEntry)].dropWhile (Expired windowMs later) =
      if later - now ≤ windowMs then [⟨now, cost⟩] else [] := by
    by_cases hlive : later - now ≤ windowMs
    · rw [if_pos hlive, dropWhile_of_live (not_lt.mpr hlive)]
    · rw [if_neg hlive, dropWhile_of_expired (not_le.mp hlive), List.dropWhile_nil]
  induction entries with
  | nil => exact hlast
  | cons e entries ih =>
    by_cases hexpired : Expired windowMs later e
    · rw [List.cons_append, dropWhile_of_expired hexpired, dropWhile_of_expired hexpired]
      exact ih fun x hx => hpast x (List.mem_cons_of_mem _ hx)
    · have hlive : later - now ≤ windowMs := by
        have hfirst := hpast e List.mem_cons_self
        have hkept : later - e.timestamp ≤ windowMs := not_lt.mp hexpired
        linarith
      rw [List.cons_append, dropWhile_of_live hexpired, dropWhile_of_live hexpired, if_pos hlive]
      rfl

theorem live_dropWhile (s : WindowLogStrategy) (key : String) {later : ℚ} (hle : now ≤ later) :
    (s.live key now).dropWhile (Expired s.windowMs later) = s.live key later := by
  cases hget : s.windows.get? key with
  | none =>
    rw [live, reading_of_get?_none hget, live, reading_of_get?_none hget]
    rfl
  | some windowData =>
    rw [live, reading_of_get? hget, live, reading_of_get? hget]
    exact dropWhile_dropWhile hle _

/-- An entry that is admitted joins the log of its key. -/
theorem Tracks.admits (h : Tracks s t admissions) (hle : t ≤ now) (hcost : 0 ≤ cost)
    (hfits : sum (s.live key now) + cost ≤ s.limit) (wait : ℚ) :
    Tracks (s.occupy key cost now).2 now (admissions ++ [⟨key, cost, now, wait⟩]) := by
  have hnow := h.later hle
  have hkept := h.kept.occupy key cost now
  have hmember : ∀ {P : Admission → Prop}, (∀ a ∈ admissions, P a) → P ⟨key, cost, now, wait⟩ →
      ∀ a ∈ admissions ++ [⟨key, cost, now, wait⟩], P a := by
    intro P hold hnew a ha
    rcases List.mem_append.mp ha with ha | ha
    · exact hold a ha
    · cases List.mem_singleton.mp ha
      exact hnew
  rw [h.kept.occupy_eq, if_pos hfits] at hkept ⊢
  constructor
  case kept => exact hkept
  case past => exact hmember hnow.past le_rfl
  case costs => exact hmember h.costs hcost
  case live =>
    intro j later hlater
    have hbefore := hnow.live j later hlater
    have hin : inWindow s.windowMs j later ⟨key, cost, now, wait⟩ =
        decide (key = j ∧ later - now ≤ s.windowMs) := rfl
    dsimp only
    rw [List.filter_append, List.map_append, ← hbefore, List.filter_cons, hin,
      WindowLogStrategy.live, reading_set]
    by_cases hj : j = key
    · subst hj
      have hpast : ∀ e ∈ s.live j now, e.timestamp ≤ now := by
        intro e he
        rw [hnow.live j now le_rfl] at he
        obtain ⟨a, ha, rfl⟩ := List.mem_map.mp he
        exact hnow.past a (List.mem_filter.mp ha).1
      rw [if_pos rfl, level, dropWhile_concat hpast, live_dropWhile s j hlater]
      simp only [true_and, decide_eq_true_eq]
      split <;> rfl
    · rw [if_neg hj, if_neg (by simp [Ne.symm hj])]
      exact (List.append_nil _).symm
  case within =>
    intro j first last hshort
    have hin : inInterval j first last ⟨key, cost, now, wait⟩ =
        decide (key = j ∧ first ≤ now ∧ now ≤ last) := rfl
    rw [total_append, total_singleton, hin]
    by_cases hnew : key = j ∧ first ≤ now ∧ now ≤ last
    · obtain ⟨rfl, hfirst, hlast⟩ := hnew
      -- what the interval admitted before is still in the window
      have hstill : total admissions (inInterval key first last) ≤
          total admissions (inWindow s.windowMs key now) := by
        refine total_le_total h.costs fun a _ ha => ?_
        obtain ⟨hkey, hafter, -⟩ := of_decide_eq_true ha
        exact decide_eq_true ⟨hkey, by dsimp only at hshort; linarith⟩
      rw [hnow.sum_live le_rfl] at hfits
      rw [if_pos (decide_eq_true ⟨rfl, hfirst, hlast⟩)]
      refine le_trans ?_ (le_max_right _ _)
      dsimp only
      linarith
    · rw [if_neg (by simpa using hnew), add_zero]
      exact h.within j first last hshort

theorem Tracks.refuses (h : Tracks s t admissions) (hle : t ≤ now)
    (hover : ¬ sum (s.live key now) + cost ≤ s.limit) :
    Tracks (s.occupy key cost now).2 now admissions := by
  have hkept := h.kept.occupy key cost now
  rw [h.kept.occupy_eq, if_neg hover] at hkept ⊢
  exact (h.later hle).of_agree hkept rfl rfl (agree_evicted s key now _)

theorem Tracks.occupy (h : Tracks s t admissions) (hle : t ≤ now) (key : String) (hcost : 0 ≤ cost) :
    (s.occupy key cost now).2.limit = s.limit ∧ (s.occupy key cost now).2.windowMs = s.windowMs ∧
    ((total admissions (inWindow s.windowMs key now) + cost ≤ s.limit ∧
      (s.occupy key cost now).1 = some (total admissions (inWindow s.windowMs key now)) ∧
      ∀ wait, Tracks (s.occupy key cost now).2 now (admissions ++ [⟨key, cost, now, wait⟩])) ∨
    (¬ total admissions (inWindow s.windowMs key now) + cost ≤ s.limit ∧
      (s.occupy key cost now).1 = none ∧ Tracks (s.occupy key cost now).2 now admissions)) := by
  have hconfig : (s.occupy key cost now).2.limit = s.limit ∧
      (s.occupy key cost now).2.windowMs = s.windowMs := by
    rw [h.kept.occupy_eq]
    split <;> exact ⟨rfl, rfl⟩
  refine ⟨hconfig.1, hconfig.2, ?_⟩
  rw [← h.sum_live hle]
  by_cases hfits : sum (s.live key now) + cost ≤ s.limit
  · refine .inl ⟨hfits, ?_, h.admits hle hcost hfits⟩
    rw [h.kept.occupy_eq, if_pos hfits]
  · refine .inr ⟨hfits, ?_, h.refuses hle hfits⟩
    rw [h.kept.occupy_eq, if_neg hfits]

theorem remaining_config (s : WindowLogStrategy) (key : String) (now : ℚ) :
    (s.remaining key now).2.limit = s.limit ∧ (s.remaining key now).2.windowMs = s.windowMs := by
  rw [WindowLogStrategy.remaining]
  split <;> exact ⟨rfl, rfl⟩

theorem Tracks.remaining (h : Tracks s t admissions) (hle : t ≤ now) (key : String) :
    Tracks (s.remaining key now).2 now admissions := by
  have hkept := h.kept.remaining key now
  rcases h.kept.remaining_snd key now with heq | heq
  · rw [heq]
    exact h.later hle
  · rw [heq] at hkept ⊢
    exact (h.later hle).of_agree hkept rfl rfl (agree_evicted s key now _)

theorem Tracks.cleanup (h : Tracks s t admissions) (hle : t ≤ now) :
    Tracks (s.cleanup now) now admissions := by
  obtain ⟨hkept, hlimit, hwindow, hagree⟩ := h.kept.cleanup now
  exact (h.later hle).of_agree hkept hlimit hwindow hagree

/-! ## The naive definition -/

/-- A log that has admitted what the naive one has. -/
structure Refines (t : ℚ) (s : WindowLogStrategy) (n : NaiveLog) : Prop where
  limit : s.limit = n.limit
  windowMs : s.windowMs = n.windowMs
  tracks : Tracks s t n.admissions

theorem Refines.step {n : NaiveLog} (h : Refines t s n) {call : Call} (hle : t ≤ call.now)
    (hcost : call.CostNonneg) : (s.step call).2 = (n.step call).2 ∧
      Refines call.now (s.step call).1 (n.step call).1 := by
  have hoccupancy : ∀ key, total n.admissions (inWindow s.windowMs key call.now) =
      n.occupancy key call.now := by
    intro key
    rw [h.windowMs]
    rfl
  obtain ⟨now, operation⟩ := call
  cases operation with
  | occupy key cost =>
    have hoccupancy := hoccupancy key
    obtain ⟨hlimit, hwindow, hcases⟩ := h.tracks.occupy hle key (hcost key cost rfl)
    rw [WindowLogStrategy.step, NaiveLog.step]
    dsimp only at hcases hoccupancy ⊢
    rw [hoccupancy, h.limit] at hcases
    rcases hcases with ⟨hfits, hbefore, htracks⟩ | ⟨hover, hbefore, htracks⟩
    · rw [if_pos hfits, hbefore]
      exact ⟨rfl, hlimit.trans h.limit, hwindow.trans h.windowMs, htracks 0⟩
    · rw [if_neg hover, hbefore]
      exact ⟨rfl, hlimit.trans h.limit, hwindow.trans h.windowMs, htracks⟩
  | remaining key =>
    have htokens : (s.remaining key now).1 = n.limit - n.occupancy key now := by
      rw [h.tracks.kept.remaining_fst, h.tracks.sum_live hle, h.limit]
      exact congrArg _ (hoccupancy key)
    obtain ⟨hlimit, hwindow⟩ := s.remaining_config key now
    exact ⟨congrArg (fun tokens => some (Answer.remaining tokens)) htokens,
      hlimit.trans h.limit, hwindow.trans h.windowMs, h.tracks.remaining hle key⟩
  | cleanup =>
    obtain ⟨-, hlimit, hwindow, -⟩ := h.tracks.kept.cleanup now
    exact ⟨rfl, hlimit.trans h.limit, hwindow.trans h.windowMs, h.tracks.cleanup hle⟩

/-! ## Sliding windows -/

theorem Tracks.sliding_step (h : Tracks s t admissions) {call : Limiter.Call} (hle : t ≤ call.now)
    (hcost : call.CostNonneg) : ∃ s', (Limiter.step (.slidingWindow ⟨s⟩) call).1 = .slidingWindow ⟨s'⟩ ∧
      s'.limit = s.limit ∧ s'.windowMs = s.windowMs ∧
      Tracks s' call.now (admissions ++ (Limiter.step (.slidingWindow ⟨s⟩) call).2.toList) := by
  obtain ⟨now, operation⟩ := call
  cases operation with
  | check key cost =>
    obtain ⟨hlimit, hwindow, hcases⟩ := h.occupy hle key (hcost key cost rfl)
    refine ⟨(s.occupy key cost now).2, rfl, hlimit, hwindow, ?_⟩
    have hstep : (Limiter.step (.slidingWindow ⟨s⟩) ⟨now, .check key cost⟩).2 =
        if (s.occupy key cost now).1.isSome then some ⟨key, cost, now, 0⟩ else none := rfl
    rw [hstep]
    rcases hcases with ⟨-, hbefore, htracks⟩ | ⟨-, hbefore, htracks⟩
    · rw [hbefore]
      exact htracks 0
    · rw [hbefore]
      exact (List.append_nil admissions).symm ▸ htracks
  | remaining key =>
    obtain ⟨hlimit, hwindow⟩ := s.remaining_config key now
    refine ⟨(s.remaining key now).2, rfl, hlimit, hwindow, ?_⟩
    exact (List.append_nil admissions).symm ▸ h.remaining hle key
  | cleanup =>
    obtain ⟨-, hlimit, hwindow, -⟩ := h.kept.cleanup now
    refine ⟨s.cleanup now, rfl, hlimit, hwindow, ?_⟩
    exact (List.append_nil admissions).symm ▸ h.cleanup hle

theorem Tracks.sliding_run (h : Tracks s t admissions) {calls : List Limiter.Call}
    (hstart : ∀ call ∈ calls, t ≤ call.now)
    (hsorted : calls.Pairwise fun call call' => call.now ≤ call'.now)
    (hcosts : ∀ call ∈ calls, call.CostNonneg) : ∃ t' s', s'.limit = s.limit ∧
      s'.windowMs = s.windowMs ∧
      Tracks s' t' (admissions ++ (Limiter.slidingWindow ⟨s⟩).admissions calls) := by
  refine (Observation.answers_invariant
    (I := fun t limiter admissions => ∃ s', limiter = Limiter.slidingWindow ⟨s'⟩ ∧
      s'.limit = s.limit ∧ s'.windowMs = s.windowMs ∧ Tracks s' t admissions)
    (fun h hle hcost => ?_) ⟨s, rfl, rfl, rfl, h⟩ hstart hsorted hcosts).imp
      fun t' ⟨_, s', _, hs'⟩ => ⟨s', hs'⟩
  obtain ⟨s₁, rfl, hlimit, hwindow, h⟩ := h
  obtain ⟨s₂, hstep, hlimit', hwindow', htracks⟩ := h.sliding_step hle hcost
  exact ⟨s₂, hstep, hlimit'.trans hlimit, hwindow'.trans hwindow, htracks⟩

/-- A window log answers what the naive definition does, and its totals are right. So a sliding
window admits no more than its limit in an interval that is no longer than the window; a limit that is
negative admits nothing. -/
theorem eq_naive (limit windowMs : ℚ) :
    (∀ calls : List Call, calls.Pairwise (fun call call' => call.now ≤ call'.now) →
      (∀ call ∈ calls, call.CostNonneg) →
        answers WindowLogStrategy.step (new limit windowMs) calls =
          answers NaiveLog.step (.new limit windowMs) calls ∧
        ∀ key windowData,
          (after WindowLogStrategy.step (new limit windowMs) calls).windows.get? key =
            some windowData → windowData.total = sum windowData.entries) ∧
    ∀ calls : List Limiter.Call, calls.Pairwise (fun call call' => call.now ≤ call'.now) →
      (∀ call ∈ calls, call.CostNonneg) → ∀ key first last, last - first ≤ windowMs →
        total ((Limiter.slidingWindow (.new limit windowMs)).admissions calls)
          (inInterval key first last) ≤ max 0 limit := by
  refine ⟨fun calls hsorted hcosts => ?_, fun calls hsorted hcosts key first last hshort => ?_⟩
  · cases calls with
    | nil => exact ⟨rfl, nofun⟩
    | cons call calls =>
      have hstart := le_of_sorted hsorted
      have hnew : Refines call.now (new limit windowMs) (.new limit windowMs) :=
        ⟨rfl, rfl, tracks_new _ _ _⟩
      have hboth : ∀ {t s n} {call : Call}, Refines t s n → t ≤ call.now → call.CostNonneg →
          (WindowLogStrategy.step s call).2 = (n.step call).2 ∧
            Refines call.now (WindowLogStrategy.step s call).1 (n.step call).1 :=
        fun h hle hcost => h.step hle hcost
      obtain ⟨heq, t', hlast⟩ := answers_eq hboth hnew hstart hsorted hcosts
      exact ⟨heq, hlast.tracks.kept⟩
  · cases calls with
    | nil => exact le_max_left _ _
    | cons call calls =>
      have hstart := le_of_sorted hsorted
      obtain ⟨t', s', hlimit, hwindow, htracks⟩ :=
        (tracks_new limit windowMs call.now).sliding_run hstart hsorted hcosts
      have hwithin := htracks.within key first last (hshort.trans hwindow.ge)
      rw [hlimit] at hwithin
      exact hwithin

end WindowLogStrategy
end RabbitMQ

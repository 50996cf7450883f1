import Mathlib.Data.Rat.Floor
import Mathlib.Tactic.Linarith
import RabbitMQ.Lib.Meter

/-! Fixed windows, anchored to the epoch: a counter's `windowStart` identifies exactly one
window. -/

namespace RabbitMQ

open Meter

structure Counter where
  count : ℚ
  windowStart : ℚ
  deriving DecidableEq

structure FixedWindowStrategy where
  maxRequests : ℚ
  windowMs : ℚ
  counters : OrderedMap String Counter

namespace FixedWindowStrategy

def new (maxRequests windowMs : ℚ) : FixedWindowStrategy := ⟨maxRequests, windowMs, .empty⟩

def capacity (s : FixedWindowStrategy) : ℚ := s.maxRequests

def windowStart (windowMs now : ℚ) : ℚ := ⌊now / windowMs⌋ * windowMs

def check (s : FixedWindowStrategy) (key : String) (cost now : ℚ) : Bool × FixedWindowStrategy :=
  let start := windowStart s.windowMs now
  let stored := s.counters.get? key
  let counter := stored.getD ⟨0, start⟩
  let counter := if counter.windowStart ≠ start then ⟨0, start⟩ else counter
  if counter.count + cost > s.maxRequests then
    -- a stored counter rolls over in place; a new one is not stored
    (false, if stored.isSome then { s with counters := s.counters.set key counter } else s)
  else
    (true, { s with
      counters := s.counters.set key { counter with count := counter.count + cost } })

def remaining (s : FixedWindowStrategy) (key : String) (now : ℚ) : ℚ :=
  match s.counters.get? key with
  | none => s.maxRequests
  | some counter =>
    if counter.windowStart ≠ windowStart s.windowMs now then s.maxRequests
    else s.maxRequests - counter.count

def cleanup (s : FixedWindowStrategy) (now : ℚ) : FixedWindowStrategy :=
  { s with counters := s.counters.filter fun _ counter =>
      counter.windowStart = windowStart s.windowMs now }

def reset (s : FixedWindowStrategy) (key : String) : FixedWindowStrategy :=
  { s with counters := s.counters.erase key }

/-- What a counter counts at an instant: nothing once its window is over. -/
def level (windowMs : ℚ) (counter : Counter) (now : ℚ) : ℚ :=
  if counter.windowStart = windowStart windowMs now then counter.count else 0

/-- No counter is of a window yet to come. -/
def Kept (t : ℚ) (s : FixedWindowStrategy) : Prop :=
  ∀ key counter, s.counters.get? key = some counter →
    counter.windowStart ≤ windowStart s.windowMs t

abbrev used (s : FixedWindowStrategy) (key : String) (now : ℚ) : ℚ :=
  reading (level s.windowMs) 0 s.counters key now

variable {s s' : FixedWindowStrategy} {t now : ℚ} {key : String} {cost : ℚ}

theorem windowStart_mono (windowMs : ℚ) : Monotone (windowStart windowMs) := by
  intro a b hab
  rcases le_total 0 windowMs with h | h
  · refine mul_le_mul_of_nonneg_right ?_ h
    exact_mod_cast Int.floor_mono (div_le_div_of_nonneg_right hab h)
  · refine mul_le_mul_of_nonpos_right ?_ h
    exact_mod_cast Int.floor_mono (div_le_div_of_nonpos_of_le h hab)

theorem Kept.later (h : Kept t s) (hle : t ≤ now) : Kept now s :=
  fun key counter hget => (h key counter hget).trans (windowStart_mono _ hle)

theorem Kept.set (h : Kept t s) {counter : Counter}
    (hcounter : counter.windowStart ≤ windowStart s.windowMs t) (key : String) :
    Kept t { s with counters := s.counters.set key counter } := by
  intro j c hget
  dsimp only at hget ⊢
  rw [OrderedMap.get?_set] at hget
  split at hget
  · cases hget
    exact hcounter
  · exact h j c hget

theorem level_of_eq {windowMs : ℚ} {counter : Counter}
    (h : counter.windowStart = windowStart windowMs now) :
    level windowMs counter now = counter.count := if_pos h

theorem level_of_lt {windowMs : ℚ} {counter : Counter}
    (h : counter.windowStart < windowStart windowMs now) : level windowMs counter now = 0 :=
  if_neg h.ne

/-- A window that is over stays over. -/
theorem Kept.stays_over (h : Kept t s) (hle : t ≤ now) {counter : Counter}
    (hget : s.counters.get? key = some counter)
    (hne : counter.windowStart ≠ windowStart s.windowMs now) {later : ℚ} (hlater : now ≤ later) :
    level s.windowMs counter later = 0 := by
  have hlt := lt_of_le_of_ne ((h.later hle) key counter hget) hne
  exact level_of_lt (hlt.trans_le (windowStart_mono _ hlater))

/-- The counter that `check` works on. -/
theorem rolled_over (s : FixedWindowStrategy) (key : String) (now : ℚ) :
    (if ((s.counters.get? key).getD ⟨0, windowStart s.windowMs now⟩).windowStart ≠
        windowStart s.windowMs now then ⟨0, windowStart s.windowMs now⟩
      else (s.counters.get? key).getD ⟨0, windowStart s.windowMs now⟩) =
      (⟨s.used key now, windowStart s.windowMs now⟩ : Counter) := by
  cases hget : s.counters.get? key with
  | none => rw [Option.getD_none, if_neg (not_ne_iff.mpr rfl), used, reading_of_get?_none hget]
  | some counter =>
    rw [Option.getD_some, used, reading_of_get? hget]
    by_cases hcurrent : counter.windowStart = windowStart s.windowMs now
    · rw [if_neg (not_ne_iff.mpr hcurrent), level_of_eq hcurrent, ← hcurrent]
    · rw [if_pos hcurrent, level, if_neg hcurrent]

/-- Rolling a counter over changes no reading from then on. -/
theorem Kept.agree_rolled (h : Kept t s) (hle : t ≤ now) (key : String) :
    Agree (level s.windowMs) 0 now
      (s.counters.set key ⟨s.used key now, windowStart s.windowMs now⟩) s.counters := by
  refine agree_set fun later hlater => ?_
  cases hget : s.counters.get? key with
  | none =>
    rw [used, reading_of_get?_none hget, reading_of_get?_none hget]
    exact ite_self 0
  | some counter =>
    rw [used, reading_of_get? hget, reading_of_get? hget]
    by_cases hcurrent : counter.windowStart = windowStart s.windowMs now
    · rw [level_of_eq hcurrent, ← hcurrent]
    · rw [h.stays_over hle hget hcurrent le_rfl, h.stays_over hle hget hcurrent hlater]
      exact ite_self 0

/-! ## What the operations read and write -/

theorem check_fst (s : FixedWindowStrategy) (key : String) (cost now : ℚ) :
    (s.check key cost now).1 = decide (s.used key now + cost ≤ s.maxRequests) := by
  rw [check, rolled_over]
  split
  · next hover => exact (decide_eq_false (not_le.mpr hover)).symm
  · next hfits => exact (decide_eq_true (not_lt.mp hfits)).symm

theorem check_admits (hfits : s.used key now + cost ≤ s.maxRequests) :
    (s.check key cost now).2 = { s with
      counters := s.counters.set key ⟨s.used key now + cost, windowStart s.windowMs now⟩ } := by
  rw [check, rolled_over, if_neg (not_lt.mpr hfits)]

theorem check_refuses (hover : s.maxRequests < s.used key now + cost) :
    (s.check key cost now).2 = s ∨ (s.check key cost now).2 = { s with
      counters := s.counters.set key ⟨s.used key now, windowStart s.windowMs now⟩ } := by
  rw [check, rolled_over, if_pos hover]
  dsimp only
  split
  · exact .inr rfl
  · exact .inl rfl

theorem Kept.check (h : Kept t s) (hle : t ≤ now) : Kept now (s.check key cost now).2 := by
  have hnow := h.later hle
  rcases le_or_gt (s.used key now + cost) s.maxRequests with hfits | hover
  · rw [check_admits hfits]
    exact hnow.set le_rfl key
  · rcases check_refuses hover with heq | heq
    · rw [heq]
      exact hnow
    · rw [heq]
      exact hnow.set le_rfl key

theorem Kept.cleanup (h : Kept t s) (hle : t ≤ now) : Kept now (s.cleanup now) :=
  fun key counter hget => h.later hle key counter (OrderedMap.get?_filter.mp hget).1

theorem Kept.agree_cleanup (h : Kept t s) (hle : t ≤ now) :
    Agree (level s.windowMs) 0 now (s.cleanup now).counters s.counters := by
  refine agree_filter fun key counter hget hdropped later hlater => ?_
  exact h.stays_over hle hget (of_decide_eq_false hdropped) hlater

theorem Kept.reset (h : Kept t s) (key : String) : Kept t (s.reset key) := by
  intro j counter hget
  dsimp only [FixedWindowStrategy.reset] at hget ⊢
  rw [OrderedMap.get?_erase] at hget
  split at hget
  · cases hget
  · exact h j counter hget

theorem kept_new (t maxRequests windowMs : ℚ) : Kept t (new maxRequests windowMs) := nofun

/-! ## Stores that agree -/

/-- Two limiters that no later reading tells apart. -/
structure Same (t : ℚ) (s s' : FixedWindowStrategy) : Prop where
  maxRequests : s.maxRequests = s'.maxRequests
  windowMs : s.windowMs = s'.windowMs
  left : Kept t s
  right : Kept t s'
  agree : Agree (level s.windowMs) 0 t s.counters s'.counters

theorem Same.used (h : Same t s s') (hle : t ≤ now) (key : String) :
    s.used key now = s'.used key now :=
  (h.agree key now hle).trans (by rw [FixedWindowStrategy.used, h.windowMs])

theorem Kept.agree_check (h : Kept t s) (hle : t ≤ now) (key : String) (cost : ℚ) :
    Agree (level s.windowMs) 0 now (s.check key cost now).2.counters
      (if s.used key now + cost ≤ s.maxRequests then
        s.counters.set key ⟨s.used key now + cost, windowStart s.windowMs now⟩
      else s.counters) := by
  rcases le_or_gt (s.used key now + cost) s.maxRequests with hfits | hover
  · rw [check_admits hfits, if_pos hfits]
    exact .refl _
  · rw [if_neg (not_le.mpr hover)]
    rcases check_refuses hover with heq | heq
    · rw [heq]
      exact .refl _
    · rw [heq]
      exact h.agree_rolled hle key

theorem check_config (s : FixedWindowStrategy) (key : String) (cost now : ℚ) :
    (s.check key cost now).2.maxRequests = s.maxRequests ∧
      (s.check key cost now).2.windowMs = s.windowMs := by
  rcases le_or_gt (s.used key now + cost) s.maxRequests with hfits | hover
  · rw [check_admits hfits]
    exact ⟨rfl, rfl⟩
  · rcases check_refuses hover with heq | heq
    · rw [heq]
      exact ⟨rfl, rfl⟩
    · rw [heq]
      exact ⟨rfl, rfl⟩

theorem Same.check (h : Same t s s') (hle : t ≤ now) (key : String) (cost : ℚ) :
    (s.check key cost now).1 = (s'.check key cost now).1 ∧
      Same now (s.check key cost now).2 (s'.check key cost now).2 := by
  have hused := h.used hle key
  obtain ⟨hmax, hwindow⟩ := check_config s key cost now
  obtain ⟨hmax', hwindow'⟩ := check_config s' key cost now
  refine ⟨?_, (hmax.trans h.maxRequests).trans hmax'.symm,
    (hwindow.trans h.windowMs).trans hwindow'.symm, h.left.check hle, h.right.check hle, ?_⟩
  · rw [check_fst, check_fst, hused, h.maxRequests]
  · rw [hwindow]
    have hleft := h.left.agree_check hle key cost
    have hright := h.right.agree_check hle key cost
    rw [← h.windowMs, ← h.maxRequests, ← hused] at hright
    refine hleft.trans (.trans ?_ hright.symm)
    split
    · exact (h.agree.later hle).set fun _ _ => rfl
    · exact h.agree.later hle

theorem Same.cleanup_left (h : Same t s s') (hle : t ≤ now) : Same now (s.cleanup now) s' :=
  ⟨h.maxRequests, h.windowMs, h.left.cleanup hle, h.right.later hle,
    (h.left.agree_cleanup hle).trans (h.agree.later hle)⟩

theorem Same.later (h : Same t s s') (hle : t ≤ now) : Same now s s' :=
  ⟨h.maxRequests, h.windowMs, h.left.later hle, h.right.later hle, h.agree.later hle⟩

theorem Same.reset (h : Same t s s') (key : String) : Same t (s.reset key) (s'.reset key) :=
  ⟨h.maxRequests, h.windowMs, h.left.reset key, h.right.reset key, h.agree.erase key⟩

end FixedWindowStrategy
end RabbitMQ

import Mathlib.Data.Rat.Floor
import Mathlib.Tactic.Linarith

/-! The timers of Node, as far as what they wait for depends on the delay they are given. -/

namespace Timer

/-- The longest delay a timer takes: 31 bits. -/
def maxDelay : ℕ := 2 ^ 31 - 1

/-- What `setTimeout` waits for, in whole milliseconds: a delay that is out of range is one
millisecond. -/
def delay (ms : ℚ) : ℕ := if 1 ≤ ms ∧ ms ≤ maxDelay then ⌊ms⌋₊ else 1

variable {ms : ℚ} {n : ℕ}

/-- A whole delay in range is waited for. -/
theorem delay_natCast (hmax : n ≤ maxDelay) : delay n = max 1 n := by
  rcases Nat.eq_zero_or_pos n with rfl | hpos
  · exact if_neg fun hrange => absurd hrange.1 (by norm_num)
  · have hone : (1 : ℚ) ≤ n := by exact_mod_cast hpos
    have hrange : (n : ℚ) ≤ maxDelay := by exact_mod_cast hmax
    rw [delay, if_pos ⟨hone, hrange⟩, Nat.floor_natCast, Nat.max_eq_right hpos]

theorem le_delay (hmax : n ≤ maxDelay) : n ≤ delay n := by
  rw [delay_natCast hmax]
  exact Nat.le_max_right 1 n

end Timer

import Mathlib

/-! Binary64 numbers by their values: what rounding to the nearest of them, ties to even, makes of a
rational. The sign of a zero is left out. -/

namespace Binary64

/-! ## The nearest integer -/

/-- The nearest integer, and the even one of two that are equally near. -/
def halfEven (x : ℚ) : ℤ :=
  if x - ⌊x⌋ < 1 / 2 then ⌊x⌋
  else if 1 / 2 < x - ⌊x⌋ then ⌊x⌋ + 1
  else if Even ⌊x⌋ then ⌊x⌋ else ⌊x⌋ + 1

variable {x y : ℚ} {n m : ℤ}

theorem halfEven_spec (x : ℚ) : |x - halfEven x| ≤ 1 / 2 ∧
    (|x - halfEven x| = 1 / 2 → Even (halfEven x)) := by
  have hlow := Int.floor_le x
  have hhigh := Int.lt_floor_add_one x
  unfold halfEven
  split
  · next hdown =>
    rw [abs_of_nonneg (by linarith)]
    exact ⟨hdown.le, fun htie => absurd htie hdown.ne⟩
  · next hup =>
    split
    · next hover =>
      push_cast
      rw [abs_of_neg (by linarith)]
      exact ⟨by linarith, fun htie => absurd htie (by linarith)⟩
    · next hunder =>
      have htie : x - ⌊x⌋ = 1 / 2 := le_antisymm (not_lt.mp hunder) (not_lt.mp hup)
      split
      · next heven =>
        rw [htie, abs_of_pos (by norm_num)]
        exact ⟨le_rfl, fun _ => heven⟩
      · next hodd =>
        push_cast
        rw [show x - (⌊x⌋ + 1) = -(1 / 2) by linarith, abs_neg, abs_of_pos (by norm_num)]
        exact ⟨le_rfl, fun _ => Int.even_add_one.mpr hodd⟩

/-- There is only one such integer. -/
theorem halfEven_eq (hnear : |x - n| ≤ 1 / 2) (htie : |x - n| = 1 / 2 → Even n) :
    halfEven x = n := by
  obtain ⟨hnear', htie'⟩ := halfEven_spec x
  generalize halfEven x = m at hnear' htie' ⊢
  rw [abs_le] at hnear hnear'
  have hlow : (n : ℚ) - m ≤ 1 := by linarith
  have hhigh : (m : ℚ) - n ≤ 1 := by linarith
  have hlow' : n - m ≤ 1 := by exact_mod_cast hlow
  have hhigh' : m - n ≤ 1 := by exact_mod_cast hhigh
  by_contra hne
  -- two integers next to one another, both of them even
  rcases (by omega : m = n + 1 ∨ n = m + 1) with rfl | rfl
  · push_cast at hnear'
    have hx : x - n = 1 / 2 := by linarith
    have hn : Even n := htie (by rw [hx, abs_of_pos (by norm_num)])
    have hm : Even (n + 1) := htie' (by
      push_cast
      rw [show x - (n + 1) = -(1 / 2) by linarith, abs_neg, abs_of_pos (by norm_num)])
    exact Int.even_add_one.mp hm hn
  · push_cast at hnear
    have hx : x - m = 1 / 2 := by linarith
    have hm : Even m := htie' (by rw [hx, abs_of_pos (by norm_num)])
    have hn : Even (m + 1) := htie (by
      push_cast
      rw [show x - (m + 1) = -(1 / 2) by linarith, abs_neg, abs_of_pos (by norm_num)])
    exact Int.even_add_one.mp hn hm

@[simp] theorem halfEven_intCast (n : ℤ) : halfEven n = n :=
  halfEven_eq (by norm_num) fun htie => absurd htie (by norm_num)

theorem halfEven_neg (x : ℚ) : halfEven (-x) = -halfEven x := by
  obtain ⟨hnear, htie⟩ := halfEven_spec x
  have hflip : |-x - ((-halfEven x : ℤ) : ℚ)| = |x - halfEven x| := by
    push_cast
    rw [← abs_neg]
    ring_nf
  exact halfEven_eq (hflip.trans_le hnear) fun h => (htie (hflip.symm.trans h)).neg

theorem halfEven_mono : Monotone halfEven := by
  intro x y hle
  obtain ⟨hx, htie⟩ := halfEven_spec x
  obtain ⟨hy, htie'⟩ := halfEven_spec y
  by_contra hlt
  have hnext : halfEven y + 1 ≤ halfEven x := Int.lt_iff_add_one_le.mp (not_le.mp hlt)
  have hcast : (halfEven y : ℚ) + 1 ≤ halfEven x := by exact_mod_cast hnext
  rw [abs_le] at hx hy
  -- both are a tie between the same two integers
  have hsame : x = y := by linarith
  rw [hsame] at hlt
  exact hlt le_rfl

theorem halfEven_le (h : x ≤ n) : halfEven x ≤ n := by
  have hmono := halfEven_mono h
  rwa [halfEven_intCast] at hmono

theorem le_halfEven (h : n ≤ x) : n ≤ halfEven x := by
  have hmono := halfEven_mono h
  rwa [halfEven_intCast] at hmono

/-! ## Rounding -/

/-- The weight of the last binary digit of the numbers about a rational. -/
def exponent (q : ℚ) : ℤ := max (Int.log 2 |q| - 52) (-1074)

/-- The nearest binary64 number, were there no largest one. -/
def round (q : ℚ) : ℚ := halfEven (q / 2 ^ exponent q) * 2 ^ exponent q

variable {a b q : ℚ} {k : ℤ}

theorem two_zpow_pos (k : ℤ) : (0 : ℚ) < 2 ^ k := zpow_pos two_pos k

theorem two_zpow_add (k l : ℤ) : (2 : ℚ) ^ k * 2 ^ l = 2 ^ (k + l) := (zpow_add₀ two_ne_zero k l).symm

theorem exponent_neg (q : ℚ) : exponent (-q) = exponent q := by
  rw [exponent, exponent, abs_neg]

theorem abs_lt_exponent (q : ℚ) : |q| < 2 ^ (exponent q + 53) := by
  refine (Int.lt_zpow_succ_log_self Nat.one_lt_two |q|).trans_le ?_
  have hle : Int.log 2 |q| + 1 ≤ exponent q + 53 := by
    have hmax := le_max_left (Int.log 2 |q| - 52) (-1074)
    rw [exponent]
    omega
  rw [Nat.cast_ofNat]
  exact zpow_le_zpow_right₀ one_le_two hle

/-- A number above the subnormal ones has its leading digit. -/
theorem exponent_le_abs (h : -1074 < exponent q) (hq : q ≠ 0) : 2 ^ (exponent q + 52) ≤ |q| := by
  have hlog : exponent q + 52 = Int.log 2 |q| := by
    rw [exponent] at h ⊢
    omega
  rw [hlog]
  exact_mod_cast Int.zpow_log_le_self Nat.one_lt_two (abs_pos.mpr hq)

/-- A number that is small takes a small weight. -/
theorem exponent_le (hk : -1074 ≤ k) (h : |q| < 2 ^ (k + 53)) (hq : q ≠ 0) : exponent q ≤ k := by
  refine max_le ?_ hk
  have hlog : Int.log 2 |q| < k + 53 :=
    (Int.lt_zpow_iff_log_lt Nat.one_lt_two (abs_pos.mpr hq)).mp (by exact_mod_cast h)
  omega

@[simp] theorem round_zero : round 0 = 0 := by
  have hzero : halfEven 0 = 0 := by exact_mod_cast halfEven_intCast 0
  rw [round, zero_div, hzero, Int.cast_zero, zero_mul]

theorem round_neg (q : ℚ) : round (-q) = -round q := by
  rw [round, exponent_neg, neg_div, halfEven_neg, round]
  push_cast
  ring

/-- What has a digit of a smaller weight at most is its own rounding. -/
theorem round_of_exponent_le (h : exponent (m * 2 ^ k) ≤ k) : round (m * 2 ^ k) = m * 2 ^ k := by
  obtain ⟨j, hj⟩ := Int.le.dest h
  have hpow : (2 : ℚ) ^ k = 2 ^ j * 2 ^ exponent (m * 2 ^ k) := by
    rw [← zpow_natCast, two_zpow_add, add_comm, hj]
  have hdiv : (m * 2 ^ k : ℚ) / 2 ^ exponent (m * 2 ^ k) = ((m * 2 ^ j : ℤ) : ℚ) := by
    rw [div_eq_iff (two_zpow_pos _).ne']
    push_cast
    rw [mul_assoc, ← hpow]
  rw [round, hdiv, halfEven_intCast]
  push_cast
  rw [mul_assoc, ← hpow]

/-- An integer of 53 bits, scaled by a power of two, is its own rounding. -/
theorem round_mul_zpow (hm : |m| ≤ 2 ^ 53) (hk : -1074 ≤ k) :
    round (m * 2 ^ k) = m * 2 ^ k := by
  rcases eq_or_ne m 0 with rfl | hne
  · rw [Int.cast_zero, zero_mul, round_zero]
  have hsmall : ∀ {m k : ℤ}, m ≠ 0 → |m| < 2 ^ 53 → -1074 ≤ k →
      round (m * 2 ^ k) = m * 2 ^ k := by
    intro m k hne hm hk
    refine round_of_exponent_le (exponent_le hk ?_ ?_)
    · have hcast : |(m : ℚ)| < 2 ^ 53 := by exact_mod_cast hm
      rw [abs_mul, abs_of_pos (two_zpow_pos k), add_comm, ← two_zpow_add]
      exact mul_lt_mul_of_pos_right (by exact_mod_cast hcast) (two_zpow_pos k)
    · exact mul_ne_zero (Int.cast_ne_zero.mpr hne) (two_zpow_pos k).ne'
  rcases lt_or_eq_of_le hm with hlt | heq
  · exact hsmall hne hlt hk
  · -- the first number with a digit more is that of half of it, a weight higher
    have hhalf : ∀ s : ℤ, ((s * 2 ^ 53 : ℤ) * 2 ^ k : ℚ) = (s * 2 ^ 52 : ℤ) * 2 ^ (k + 1) := by
      intro s
      rw [zpow_add_one₀ two_ne_zero]
      push_cast
      ring
    rcases eq_or_eq_neg_of_abs_eq heq with rfl | rfl
    · have hpos := hhalf 1
      rw [one_mul, one_mul] at hpos
      rw [hpos]
      exact hsmall (by norm_num) (by norm_num) (by omega)
    · have hneg := hhalf (-1)
      rw [neg_one_mul, neg_one_mul] at hneg
      rw [hneg]
      exact hsmall (by norm_num) (by norm_num) (by omega)

theorem abs_significand_le (q : ℚ) : |halfEven (q / 2 ^ exponent q)| ≤ 2 ^ 53 := by
  have hbound : |q / 2 ^ exponent q| ≤ 2 ^ 53 := by
    rw [abs_div, abs_of_pos (two_zpow_pos _), div_le_iff₀ (two_zpow_pos _)]
    refine (abs_lt_exponent q).le.trans_eq ?_
    rw [add_comm, ← two_zpow_add]
    norm_cast
  rw [abs_le] at hbound ⊢
  constructor
  · refine le_halfEven ?_
    push_cast
    exact hbound.1
  · refine halfEven_le ?_
    push_cast
    exact hbound.2

/-- Rounding twice is rounding once. -/
@[simp] theorem round_round (q : ℚ) : round (round q) = round q :=
  round_mul_zpow (abs_significand_le q) (le_max_right _ _)

theorem round_intCast (hn : |n| ≤ 2 ^ 53) : round n = n := by
  have hone := @round_mul_zpow n 0 hn (by norm_num)
  rwa [zpow_zero, mul_one] at hone

theorem round_nonneg (hq : 0 ≤ q) : 0 ≤ round q := by
  refine mul_nonneg ?_ (two_zpow_pos _).le
  exact_mod_cast le_halfEven (by exact_mod_cast div_nonneg hq (two_zpow_pos _).le)

theorem exponent_mono (ha : 0 < a) (hle : a ≤ b) : exponent a ≤ exponent b := by
  rw [exponent, exponent, abs_of_pos ha, abs_of_pos (ha.trans_le hle)]
  have hlog : Int.log 2 a ≤ Int.log 2 b := Int.log_mono_right ha hle
  omega

theorem round_mono_of_nonneg (ha : 0 ≤ a) (hle : a ≤ b) : round a ≤ round b := by
  rcases ha.eq_or_lt with rfl | hpos
  · rw [round_zero]
    exact round_nonneg hle
  rcases (exponent_mono hpos hle).eq_or_lt with heq | hlt
  · rw [round, round, heq]
    refine mul_le_mul_of_nonneg_right ?_ (two_zpow_pos _).le
    exact_mod_cast halfEven_mono (div_le_div_of_nonneg_right hle (two_zpow_pos _).le)
  · -- a power of two lies between them
    have hb : 0 < b := hpos.trans_le hle
    have hlead : 2 ^ (exponent b + 52) ≤ b := by
      have hleast := exponent_le_abs ((le_max_right _ _).trans_lt hlt) hb.ne'
      rwa [abs_of_pos hb] at hleast
    have hbelow : round a ≤ 2 ^ (exponent a + 53) := by
      have hcast : (halfEven (a / 2 ^ exponent a) : ℚ) ≤ 2 ^ 53 := by
        exact_mod_cast (abs_le.mp (abs_significand_le a)).2
      rw [add_comm, ← two_zpow_add, round]
      exact mul_le_mul_of_nonneg_right (by exact_mod_cast hcast) (two_zpow_pos _).le
    have habove : 2 ^ (exponent b + 52) ≤ round b := by
      have hcast : (2 ^ 52 : ℤ) ≤ halfEven (b / 2 ^ exponent b) := by
        refine le_halfEven ?_
        rw [le_div_iff₀ (two_zpow_pos _)]
        refine le_trans (le_of_eq ?_) hlead
        rw [add_comm, ← two_zpow_add]
        norm_cast
      have hrat : (2 ^ 52 : ℚ) ≤ halfEven (b / 2 ^ exponent b) := by exact_mod_cast hcast
      rw [add_comm, ← two_zpow_add, round]
      exact mul_le_mul_of_nonneg_right (by exact_mod_cast hrat) (two_zpow_pos _).le
    have hbetween : (2 : ℚ) ^ (exponent a + 53) ≤ 2 ^ (exponent b + 52) :=
      zpow_le_zpow_right₀ one_le_two (by omega)
    exact hbelow.trans (hbetween.trans habove)

theorem round_mono : Monotone round := by
  intro a b hle
  rcases le_total 0 a with ha | ha
  · exact round_mono_of_nonneg ha hle
  rcases le_total 0 b with hb | hb
  · have hneg : 0 ≤ -round a := by
      rw [← round_neg]
      exact round_nonneg (neg_nonneg.mpr ha)
    exact (neg_nonneg.mp hneg).trans (round_nonneg hb)
  · have hflip := round_mono_of_nonneg (neg_nonneg.mpr hb) (neg_le_neg hle)
    rw [round_neg, round_neg] at hflip
    exact neg_le_neg_iff.mp hflip

/-! ## The numbers of the format -/

/-- A rational that is a binary64 number. -/
def IsDouble (q : ℚ) : Prop := round q = q ∧ |q| < 2 ^ 1024

instance : DecidablePred IsDouble := fun _ => inferInstanceAs (Decidable (_ ∧ _))

theorem isDouble_round (h : |round q| < 2 ^ 1024) : IsDouble (round q) := ⟨round_round q, h⟩

/-- Whole numbers of 53 bits. -/
theorem isDouble_intCast (hn : |n| ≤ 2 ^ 53) : IsDouble n := by
  refine ⟨round_intCast hn, ?_⟩
  have hcast : |(n : ℚ)| ≤ 2 ^ 53 := by exact_mod_cast hn
  exact hcast.trans_lt (pow_lt_pow_right₀ one_lt_two (by norm_num))

theorem isDouble_zero : IsDouble 0 := by exact_mod_cast @isDouble_intCast 0 (by norm_num)

theorem IsDouble.le_round (ha : IsDouble a) (h : a ≤ q) : a ≤ round q :=
  ha.1.ge.trans (round_mono h)

theorem IsDouble.round_le (ha : IsDouble a) (h : q ≤ a) : round q ≤ a :=
  (round_mono h).trans ha.1.le

theorem IsDouble.abs_round_le (ha : IsDouble a) (h : |q| ≤ a) : |round q| ≤ a := by
  have hneg : IsDouble (-a) := ⟨(round_neg a).trans (congrArg _ ha.1), (abs_neg a).trans_lt ha.2⟩
  obtain ⟨hlow, hhigh⟩ := abs_le.mp h
  exact abs_le.mpr ⟨hneg.le_round hlow, ha.round_le hhigh⟩

/-! ## Quotients of whole numbers -/

/-- A rounding is off by half a unit of the last digit at most. -/
theorem abs_sub_round_le (q : ℚ) : |q - round q| ≤ 2 ^ (exponent q - 1) := by
  have hunit := two_zpow_pos (exponent q)
  have hscaled : q - round q = (q / 2 ^ exponent q - halfEven (q / 2 ^ exponent q)) *
      2 ^ exponent q := by
    rw [round, sub_mul, div_mul_cancel₀ _ hunit.ne']
  rw [hscaled, abs_mul, abs_of_pos hunit, zpow_sub_one₀ two_ne_zero, mul_comm]
  refine mul_le_mul_of_nonneg_left ?_ hunit.le
  exact (halfEven_spec _).1.trans_eq (one_div 2)

theorem abs_div_le (hm : 0 < m) (hn : |n| ≤ 2 ^ 53) : |(n / m : ℚ)| ≤ 2 ^ 53 := by
  have hpos : (0 : ℚ) < m := by exact_mod_cast hm
  rw [abs_div, abs_of_pos hpos, div_le_iff₀ hpos]
  have hleast : (1 : ℚ) ≤ m := by exact_mod_cast hm
  have hcast : |(n : ℚ)| ≤ 2 ^ 53 := by exact_mod_cast hn
  exact hcast.trans (le_mul_of_one_le_right (by norm_num) hleast)

theorem abs_round_div_lt (hm : 0 < m) (hn : |n| ≤ 2 ^ 53) : |round (n / m : ℚ)| < 2 ^ 1024 := by
  have hlarge : IsDouble ((2 ^ 53 : ℤ) : ℚ) := isDouble_intCast (by norm_num)
  have hbound : |(n / m : ℚ)| ≤ ((2 ^ 53 : ℤ) : ℚ) := by
    rw [Int.cast_pow, Int.cast_ofNat]
    exact abs_div_le hm hn
  refine (hlarge.abs_round_le hbound).trans_lt ?_
  rw [Int.cast_pow, Int.cast_ofNat]
  exact pow_lt_pow_right₀ one_lt_two (by norm_num)

/-- The quotient of two whole numbers is farther from the next one than it is rounded. -/
theorem abs_sub_round_div_lt (hm : 0 < m) (hm' : m ≤ 2 ^ 53) (hn : |n| < 2 ^ 53) :
    |(n / m : ℚ) - round (n / m)| < 1 / m := by
  have hpos : (0 : ℚ) < m := by exact_mod_cast hm
  rcases eq_or_ne n 0 with rfl | hzero
  · rw [Int.cast_zero, zero_div, round_zero, sub_zero, abs_zero]
    exact one_div_pos.mpr hpos
  refine (abs_sub_round_le _).trans_lt ?_
  have hmin : -1074 ≤ exponent (n / m : ℚ) := le_max_right _ _
  rcases hmin.eq_or_lt with heq | hlt
  · rw [← heq, lt_div_iff₀ hpos]
    have hle : (m : ℚ) ≤ 2 ^ (53 : ℤ) := by exact_mod_cast hm'
    calc (2 : ℚ) ^ (-1074 - 1 : ℤ) * m ≤ 2 ^ (-1074 - 1 : ℤ) * 2 ^ (53 : ℤ) :=
          mul_le_mul_of_nonneg_left hle (two_zpow_pos _).le
      _ = 2 ^ (-1022 : ℤ) := two_zpow_add _ _
      _ < 1 := zpow_lt_one_of_neg₀ one_lt_two (by norm_num)
  · have hne : (n / m : ℚ) ≠ 0 := div_ne_zero (Int.cast_ne_zero.mpr hzero) hpos.ne'
    have hlead := exponent_le_abs hlt hne
    rw [abs_div, abs_of_pos hpos, le_div_iff₀ hpos] at hlead
    have hbound : |(n : ℚ)| < 2 ^ (53 : ℤ) := by exact_mod_cast hn
    have hsplit : (2 : ℚ) ^ (exponent (n / m : ℚ) + 52) =
        2 ^ (exponent (n / m : ℚ) - 1) * 2 ^ (53 : ℤ) := by
      rw [two_zpow_add]
      congr 1
      omega
    rw [hsplit, mul_right_comm] at hlead
    rw [lt_div_iff₀ hpos]
    have hless := hlead.trans_lt hbound
    rwa [mul_lt_iff_lt_one_left (two_zpow_pos _)] at hless

/-- A quotient of whole numbers is not rounded up to a whole number. -/
theorem floor_round_div (hm : 0 < m) (hm' : m ≤ 2 ^ 53) (hn : |n| < 2 ^ 53) :
    ⌊round (n / m)⌋ = ⌊(n / m : ℚ)⌋ := by
  have hpos : (0 : ℚ) < m := by exact_mod_cast hm
  obtain ⟨hlow, hhigh⟩ := abs_le.mp (abs_div_le hm hn.le)
  have hwhole : |⌊(n / m : ℚ)⌋| ≤ 2 ^ 53 := by
    refine abs_le.mpr ⟨Int.le_floor.mpr ?_, ?_⟩
    · exact_mod_cast hlow
    · exact_mod_cast (Int.floor_le _).trans hhigh
  refine Int.floor_eq_iff.mpr ⟨(isDouble_intCast hwhole).le_round (Int.floor_le _), ?_⟩
  have hnext : (n / m : ℚ) + 1 / m ≤ ⌊(n / m : ℚ)⌋ + 1 := by
    have hless := Int.lt_floor_add_one (n / m : ℚ)
    rw [div_lt_iff₀ hpos] at hless
    have hsucc : n + 1 ≤ (⌊(n / m : ℚ)⌋ + 1) * m := by exact_mod_cast hless
    rw [← add_div, div_le_iff₀ hpos]
    exact_mod_cast hsucc
  have hoff := (abs_lt.mp (abs_sub_round_div_lt hm hm' hn)).1
  linarith

end Binary64

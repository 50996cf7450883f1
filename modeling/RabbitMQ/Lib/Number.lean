import RabbitMQ.Lib.Binary64

/-! The numbers of JavaScript. What arithmetic makes of finite ones is rounded to binary64; what has
no value is not a number, and every comparison with that is false. -/

open Binary64 (IsDouble)

inductive Number where
  | nan
  | negInf
  | finite (q : ℚ)
  | posInf
  deriving DecidableEq

namespace Number

/-- The number that a rational is rounded to: an infinity beyond the largest one of the format. -/
def of (q : ℚ) : Number :=
  if |Binary64.round q| < 2 ^ 1024 then .finite (Binary64.round q) else if 0 < q then .posInf else .negInf

/-- The infinity of a sign. -/
def infinity : SignType → Number
  | .zero => .nan
  | .neg => .negInf
  | .pos => .posInf

def sign : Number → SignType
  | .nan => 0
  | .negInf => -1
  | .finite q => SignType.sign q
  | .posInf => 1

def neg : Number → Number
  | .nan => .nan
  | .negInf => .posInf
  | .finite q => .finite (-q)
  | .posInf => .negInf

def add : Number → Number → Number
  | .nan, _ | _, .nan | .posInf, .negInf | .negInf, .posInf => .nan
  | .finite a, .finite b => of (a + b)
  | .posInf, _ | _, .posInf => .posInf
  | .negInf, _ | _, .negInf => .negInf

def sub (a b : Number) : Number := a.add b.neg

def mul : Number → Number → Number
  | .nan, _ | _, .nan => .nan
  | .finite a, .finite b => of (a * b)
  | a, b => infinity (a.sign * b.sign)

/-- The quotient. A zero below the line is positive. -/
def div : Number → Number → Number
  | .nan, _ | _, .nan => .nan
  | .finite a, .finite b => if b = 0 then infinity (SignType.sign a) else of (a / b)
  | .finite _, _ => .finite 0
  | a, .finite b => infinity (a.sign * if b = 0 then 1 else SignType.sign b)
  | _, _ => .nan

/-- `a < b` -/
def lt : Number → Number → Bool
  | .finite a, .finite b => a < b
  | .negInf, .finite _ | .negInf, .posInf | .finite _, .posInf => true
  | _, _ => false

/-- `a === b` -/
def eq (a b : Number) : Bool := a = b ∧ a ≠ .nan

/-- `a <= b` -/
def le (a b : Number) : Bool := a.lt b || a.eq b

/-- `Math.min(a, b)` -/
def min (a b : Number) : Number :=
  if a = .nan ∨ b = .nan then .nan else if b.lt a then b else a

/-- `Math.floor(a)` -/
def floor : Number → Number
  | .finite q => .finite ⌊q⌋
  | a => a

/-- `value || fallback`, where there is a value that is neither zero nor not a number. -/
def orElse (value : Option Number) (fallback : Number) : Number :=
  match value with
  | none | some .nan => fallback
  | some value => if value = .finite 0 then fallback else value

/-! ## Exact arithmetic -/

/-- The sum needs no rounding. -/
def SumExact : Number → Number → Prop
  | .finite a, .finite b => IsDouble (a + b)
  | _, _ => False

/-- The difference needs no rounding. -/
def DiffExact : Number → Number → Prop
  | .finite a, .finite b => IsDouble (a - b)
  | _, _ => False

/-- The product needs no rounding. -/
def ProdExact : Number → Number → Prop
  | .finite a, .finite b => IsDouble (a * b)
  | _, _ => False

instance (a b : Number) : Decidable (SumExact a b) := by
  cases a <;> cases b <;> unfold SumExact <;> infer_instance

instance (a b : Number) : Decidable (DiffExact a b) := by
  cases a <;> cases b <;> unfold DiffExact <;> infer_instance

instance (a b : Number) : Decidable (ProdExact a b) := by
  cases a <;> cases b <;> unfold ProdExact <;> infer_instance

variable {a b lo hi q : ℚ} {x y : Number}

theorem of_eq_round (h : |Binary64.round q| < 2 ^ 1024) : of q = .finite (Binary64.round q) := if_pos h

theorem of_eq (h : IsDouble q) : of q = .finite q := by
  rw [of, h.1, if_pos h.2]

/-- What lies between two numbers of the format is rounded to one that does. -/
theorem of_between (hlo : IsDouble lo) (hhi : IsDouble hi) (hle : lo ≤ q) (hle' : q ≤ hi) :
    ∃ r, of q = .finite r ∧ IsDouble r ∧ lo ≤ r ∧ r ≤ hi := by
  have hlow := hlo.le_round hle
  have hhigh := hhi.round_le hle'
  have hfinite : |Binary64.round q| < 2 ^ 1024 := by
    have hlo' := abs_lt.mp hlo.2
    have hhi' := abs_lt.mp hhi.2
    exact abs_lt.mpr ⟨hlo'.1.trans_le hlow, hhigh.trans_lt hhi'.2⟩
  exact ⟨_, if_pos hfinite, Binary64.isDouble_round hfinite, hlow, hhigh⟩

theorem add_finite (h : IsDouble (a + b)) : (finite a).add (.finite b) = .finite (a + b) := of_eq h

theorem sub_finite (h : IsDouble (a - b)) : (finite a).sub (.finite b) = .finite (a - b) := by
  rw [sub, neg, add, ← sub_eq_add_neg, of_eq h]

theorem mul_finite (h : IsDouble (a * b)) : (finite a).mul (.finite b) = .finite (a * b) := of_eq h

theorem div_finite (hb : b ≠ 0) (h : IsDouble (a / b)) :
    (finite a).div (.finite b) = .finite (a / b) := by
  rw [div, if_neg hb, of_eq h]

@[simp] theorem lt_finite : (finite a).lt (.finite b) = decide (a < b) := rfl

@[simp] theorem eq_finite : (finite a).eq (.finite b) = decide (a = b) := by
  simp [eq]

@[simp] theorem le_finite : (finite a).le (.finite b) = decide (a ≤ b) := by
  rw [le, lt_finite, eq_finite, ← Bool.decide_or]
  exact decide_eq_decide.mpr le_iff_lt_or_eq.symm

@[simp] theorem min_finite : (finite a).min (.finite b) = .finite (Min.min a b) := by
  rw [min, if_neg (by simp), lt_finite]
  rcases lt_or_ge b a with h | h
  · rw [if_pos (decide_eq_true h), min_eq_right h.le]
  · rw [if_neg (by simpa using h), min_eq_left h]

@[simp] theorem floor_finite : (finite a).floor = .finite ⌊a⌋ := rfl

/-- It is not negative, and it is a number. -/
def Nonneg (a : Number) : Prop := (finite 0).le a

theorem nonneg_finite : (finite a).Nonneg ↔ 0 ≤ a := by
  rw [Nonneg, le_finite, decide_eq_true_eq]

end Number

import Mathlib.Algebra.BigOperators.Group.List.Basic
import RabbitMQ.Resilience.RateLimiter

/-! Runs of a strategy, and what it admits in them. -/

namespace RabbitMQ
namespace RateLimiter

open Observation

inductive Limiter.Operation where
  | check (key : String) (cost : ℚ)
  | remaining (key : String)
  | cleanup
  deriving DecidableEq

/-- An operation of a strategy at an instant. -/
structure Limiter.Call where
  now : ℚ
  operation : Limiter.Operation
  deriving DecidableEq

/-- A check that a strategy has granted. -/
structure Admission where
  key : String
  cost : ℚ
  now : ℚ
  wait : ℚ
  deriving DecidableEq

/-- The step of a call, with the admission when it is a check that is granted. -/
def Limiter.step (limiter : Limiter) (call : Limiter.Call) : Limiter × Option Admission :=
  match call.operation with
  | .check key cost =>
    let (verdict, limiter) := limiter.check key cost call.now
    (limiter, if verdict.allowed then some ⟨key, cost, call.now, verdict.wait⟩ else none)
  | .remaining key => ((limiter.remaining key call.now).2, none)
  | .cleanup => (limiter.cleanup call.now, none)

/-- The key that a call is about. -/
def Limiter.Call.key? (call : Limiter.Call) : Option String :=
  match call.operation with
  | .check key _ | .remaining key => some key
  | .cleanup => none

/-- A check has a cost that is not negative. -/
def Limiter.Call.CostNonneg (call : Limiter.Call) : Prop :=
  ∀ key cost, call.operation = .check key cost → 0 ≤ cost

/-- What the calls of a run have admitted. -/
def Limiter.admissions (limiter : Limiter) (calls : List Limiter.Call) : List Admission :=
  answers Limiter.step limiter calls

/-- The state that the calls of a run have left. -/
def Limiter.run (limiter : Limiter) (calls : List Limiter.Call) : Limiter :=
  after Limiter.step limiter calls

/-- The cost of the admissions that meet a condition. -/
def total (admissions : List Admission) (p : Admission → Bool) : ℚ :=
  ((admissions.filter p).map (·.cost)).sum

variable {limiter : Limiter} {call : Limiter.Call} {calls calls' : List Limiter.Call}
  {admissions admissions' : List Admission} {p : Admission → Bool}

@[simp] theorem Limiter.run_nil : limiter.run [] = limiter := rfl

@[simp] theorem Limiter.run_cons :
    limiter.run (call :: calls) = (limiter.step call).1.run calls := rfl

theorem Limiter.run_append : limiter.run (calls ++ calls') = (limiter.run calls).run calls' :=
  List.foldl_append

@[simp] theorem Limiter.admissions_nil : limiter.admissions [] = [] := rfl

theorem Limiter.admissions_cons : limiter.admissions (call :: calls) =
    (limiter.step call).2.toList ++ (limiter.step call).1.admissions calls := rfl

theorem Limiter.admissions_append : limiter.admissions (calls ++ calls') =
    limiter.admissions calls ++ (limiter.run calls).admissions calls' :=
  answers_append _ _ _ _

@[simp] theorem total_nil : total [] p = 0 := rfl

@[simp] theorem total_false : (total admissions fun _ => false) = 0 := by
  rw [total, List.filter_false]
  rfl

theorem total_congr {q : Admission → Bool} (h : ∀ a ∈ admissions, p a = q a) :
    total admissions p = total admissions q := by
  rw [total, List.filter_congr h, total]

theorem total_append : total (admissions ++ admissions') p =
    total admissions p + total admissions' p := by
  rw [total, List.filter_append, List.map_append, List.sum_append, total, total]

theorem total_cons (a : Admission) :
    total (a :: admissions) p = (if p a then a.cost else 0) + total admissions p := by
  rw [total, List.filter_cons]
  split
  · rw [List.map_cons, List.sum_cons, total]
  · exact (zero_add _).symm

theorem total_singleton (a : Admission) : total [a] p = if p a then a.cost else 0 := by
  rw [total_cons, total_nil, add_zero]

theorem total_eq_zero (h : ∀ a ∈ admissions, ¬ p a) : total admissions p = 0 := by
  rw [total, List.filter_eq_nil_iff.mpr h]
  rfl

theorem total_nonneg (hcosts : ∀ a ∈ admissions, 0 ≤ a.cost) (p : Admission → Bool) :
    0 ≤ total admissions p := by
  induction admissions with
  | nil => exact le_rfl
  | cons a admissions ih =>
    rw [total_cons]
    refine add_nonneg ?_ (ih fun b hb => hcosts b (List.mem_cons_of_mem _ hb))
    split
    · exact hcosts a List.mem_cons_self
    · exact le_rfl

/-- What meets a condition meets one of two others. -/
theorem total_le_add {q q' : Admission → Bool} (hcosts : ∀ a ∈ admissions, 0 ≤ a.cost)
    (h : ∀ a ∈ admissions, p a → q a ∨ q' a) :
    total admissions p ≤ total admissions q + total admissions q' := by
  induction admissions with
  | nil => exact le_of_eq (add_zero 0).symm
  | cons a admissions ih =>
    have hle := ih (fun b hb => hcosts b (List.mem_cons_of_mem _ hb))
      fun b hb => h b (List.mem_cons_of_mem _ hb)
    have hcost := hcosts a List.mem_cons_self
    have hnonneg : ∀ q : Admission → Bool, 0 ≤ if q a then a.cost else 0 := by
      intro q
      split
      · exact hcost
      · exact le_rfl
    have hfirst : (if p a then a.cost else 0) ≤
        (if q a then a.cost else 0) + if q' a then a.cost else 0 := by
      cases hp : p a with
      | false => exact add_nonneg (hnonneg q) (hnonneg q')
      | true =>
        rcases h a List.mem_cons_self hp with hq | hq
        · rw [if_pos rfl, if_pos hq]
          exact le_add_of_nonneg_right (hnonneg q')
        · rw [if_pos rfl, if_pos hq]
          exact le_add_of_nonneg_left (hnonneg q)
    rw [total_cons, total_cons, total_cons]
    linarith

theorem total_le_total {q : Admission → Bool} (hcosts : ∀ a ∈ admissions, 0 ≤ a.cost)
    (h : ∀ a ∈ admissions, p a → q a) : total admissions p ≤ total admissions q := by
  have hle := @total_le_add admissions p q (fun _ => false) hcosts fun a ha hp => .inl (h a ha hp)
  rwa [total_false, add_zero] at hle

/-- What meets a condition, by another one that is stronger. -/
theorem total_split {q : Admission → Bool} (h : ∀ a ∈ admissions, q a → p a) :
    total admissions p = total admissions q + total admissions fun a => p a ∧ ¬ q a := by
  induction admissions with
  | nil => exact (add_zero 0).symm
  | cons a admissions ih =>
    have hfirst : (if p a then a.cost else 0) =
        (if q a then a.cost else 0) + if decide (p a ∧ ¬ q a) then a.cost else 0 := by
      cases hq : q a with
      | true => simp [h a List.mem_cons_self hq]
      | false => simp
    rw [total_cons, total_cons, total_cons, hfirst,
      ih fun b hb => h b (List.mem_cons_of_mem _ hb)]
    ring

theorem Limiter.exists_after (calls : List Limiter.Call) :
    ∃ last, ∀ call ∈ calls, call.now ≤ last := by
  induction calls with
  | nil => exact ⟨0, nofun⟩
  | cons call calls ih =>
    obtain ⟨last, hlast⟩ := ih
    refine ⟨max call.now last, fun c hc => ?_⟩
    rcases List.mem_cons.mp hc with rfl | hc
    · exact le_max_left _ _
    · exact (hlast c hc).trans (le_max_right _ _)

end RateLimiter
end RabbitMQ

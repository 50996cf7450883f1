import Mathlib.Algebra.BigOperators.Group.List.Basic
import Mathlib.Algebra.Order.Floor.Ring
import Mathlib.Data.Rat.Floor
import RabbitMQ.Lib.Transition

/-! The prefetch of a consumer that follows the pace of its callback: after each call, and once per
interval, the average of the measured times raises it, lowers it or leaves it. -/

namespace RabbitMQ
namespace OptimizedPrefetch

open Transition

/-- The options `subscribeWithOptimizedPrefetch` takes for itself. -/
structure Options where
  initialPrefetch : ℤ := 10
  maxPrefetch : ℤ := 1000
  minPrefetch : ℤ := 1
  optimizationInterval : ℚ := 1000
  increaseFactor : ℚ := 3 / 2
  decreaseFactor : ℚ := 3 / 4

/-- What the optimizer reads of the consumer. -/
structure ConsumerInfo where
  channel : Bool
  epoch : Nat

structure State where
  currentPrefetch : ℤ
  lastOptimizationTime : ℚ
  processingTimes : List ℚ
  /-- `this.activeConsumers.get(consumerId)` -/
  consumerInfo : Option ConsumerInfo
  knownEpoch : Option Nat
  /-- The calls of `optimizePrefetch` that apply the prefetch again after a recreation. -/
  reapplying : Nat
  /-- What `applyPrefetch` was called with. -/
  applied : List ℤ

def start (options : Options) (now : ℚ) : State where
  currentPrefetch := options.initialPrefetch
  lastOptimizationTime := now
  processingTimes := []
  consumerInfo := none
  knownEpoch := none
  reapplying := 0
  applied := []

/-- The average of the measured times: that of none compares with nothing. -/
def avgProcessingTime (times : List ℚ) : Option ℚ :=
  if times = [] then none else some (times.sum / times.length)

/-- The prefetch that follows from the average of a window. -/
def newPrefetch (options : Options) (currentPrefetch : ℤ) (avg : Option ℚ) : ℤ :=
  if avg.any (· < 100) ∧ currentPrefetch < options.maxPrefetch then
    min ⌊currentPrefetch * options.increaseFactor⌋ options.maxPrefetch
  else if avg.any (500 < ·) ∧ options.minPrefetch < currentPrefetch then
    max ⌊currentPrefetch * options.decreaseFactor⌋ options.minPrefetch
  else currentPrefetch

namespace State

/-- The end of `optimizePrefetch`: the window closes if it is old enough. The answer is the average
of the window. -/
def closeWindow (s : State) (options : Options) (now : ℚ) : State × List (Option ℚ) :=
  if now - s.lastOptimizationTime < options.optimizationInterval then (s, [])
  else
    let avg := avgProcessingTime s.processingTimes
    let next := newPrefetch options s.currentPrefetch avg
    ({ s with
        lastOptimizationTime := now
        processingTimes := []
        currentPrefetch := next
        applied := if next = s.currentPrefetch then s.applied else s.applied ++ [next] }, [avg])

def optimizePrefetch (s : State) (options : Options) (now : ℚ) : State × List (Option ℚ) :=
  match s.consumerInfo with
  | some ⟨true, epoch⟩ =>
    if some epoch ≠ s.knownEpoch then
      if s.currentPrefetch ≠ options.initialPrefetch then
        ({ s with
            knownEpoch := some epoch
            reapplying := s.reapplying + 1
            applied := s.applied ++ [s.currentPrefetch] }, [])
      else { s with knownEpoch := some epoch }.closeWindow options now
    else s.closeWindow options now
  | _ => (s, [])

end State

inductive Event where
  /-- `subscribe` returns, and the consumer is found by its tag -/
  | subscribed (epoch : Nat)
  /-- the consumer loses its channel, is recreated or is dropped -/
  | registry (info : Option ConsumerInfo)
  /-- the callback returned after the time measured -/
  | processed (time now : ℚ)
  /-- the callback threw after the time measured -/
  | failed (time : ℚ)
  /-- the prefetch is applied again, and the optimizer goes on -/
  | reapplied (now : ℚ)

/-- A step, with the averages of the windows it closes. -/
def step (options : Options) (s : State) : Event → Option (State × List (Option ℚ))
  | .subscribed epoch =>
    match s.knownEpoch with
    | none => some ({ s with consumerInfo := some ⟨true, epoch⟩, knownEpoch := some epoch }, [])
    | some _ => none
  | .registry info =>
    match s.knownEpoch with
    | none => none
    | some _ => some ({ s with consumerInfo := info }, [])
  | .processed time now =>
    some ({ s with processingTimes := s.processingTimes ++ [time] }.optimizePrefetch options now)
  | .failed time => some ({ s with processingTimes := s.processingTimes ++ [time] }, [])
  | .reapplied now =>
    if 0 < s.reapplying then
      some ({ s with reapplying := s.reapplying - 1 }.closeWindow options now)
    else none

/-- Some run of the optimizer ends there, with the averages of the windows that closed. -/
def Runs (options : Options) (w : State × List (Option ℚ)) : Prop :=
  ∃ now, Reach (logged (step options)) anyStep (start options now, []) w

/-! ## Windows -/

/-- One window closes and the prefetch that follows from it is set, or none and it is left. -/
def Windows (options : Options) (currentPrefetch : ℤ) (r : State × List (Option ℚ)) : Prop :=
  r.2 = [] ∧ r.1.currentPrefetch = currentPrefetch ∨
    ∃ avg, r.2 = [avg] ∧ r.1.currentPrefetch = newPrefetch options currentPrefetch avg

theorem windows_closeWindow (s : State) (options : Options) (now : ℚ) :
    Windows options s.currentPrefetch (s.closeWindow options now) := by
  unfold State.closeWindow
  split
  · exact .inl ⟨rfl, rfl⟩
  · exact .inr ⟨_, rfl, rfl⟩

theorem windows_optimizePrefetch (s : State) (options : Options) (now : ℚ) :
    Windows options s.currentPrefetch (s.optimizePrefetch options now) := by
  unfold State.optimizePrefetch
  split
  · split
    · split
      · exact .inl ⟨rfl, rfl⟩
      · exact windows_closeWindow { s with knownEpoch := some _ } options now
    · exact windows_closeWindow s options now
  · exact .inl ⟨rfl, rfl⟩

theorem step_windows {options : Options} {s : State} {event : Event} {r : State × List (Option ℚ)}
    (hs : step options s event = some r) : Windows options s.currentPrefetch r := by
  cases event with
  | subscribed epoch =>
    simp only [step] at hs
    split at hs
    · cases hs
      exact .inl ⟨rfl, rfl⟩
    · cases hs
  | registry info =>
    simp only [step] at hs
    split at hs
    · cases hs
    · cases hs
      exact .inl ⟨rfl, rfl⟩
  | processed time now =>
    cases hs
    exact windows_optimizePrefetch
      { s with processingTimes := s.processingTimes ++ [time] } options now
  | failed time =>
    cases hs
    exact .inl ⟨rfl, rfl⟩
  | reapplied now =>
    simp only [step] at hs
    split at hs
    · cases hs
      exact windows_closeWindow { s with reapplying := s.reapplying - 1 } options now
    · cases hs

end OptimizedPrefetch
end RabbitMQ

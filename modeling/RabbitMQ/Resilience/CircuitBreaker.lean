import RabbitMQ.Lib.Transition

/-! The circuit breaker, its events and its state. `reset` puts another policy in place; the
operations that were composed with the one before keep it, and its listener stays attached. -/

namespace RabbitMQ
namespace CircuitBreaker

open Transition

/-- The state of a policy. -/
inductive PolicyState where
  | closed
  | open_
  | halfOpen
  | isolated
  deriving DecidableEq

/-- `STATE_LABELS` -/
def stateLabels : PolicyState → String
  | .closed => "CLOSED"
  | .open_ => "OPEN"
  | .halfOpen => "HALF-OPEN"
  | .isolated => "ISOLATED"

structure State where
  /-- The policies that `reset` has replaced, the oldest first. -/
  replaced : List PolicyState
  /-- `#policy` -/
  policy : PolicyState
  /-- The policy that each operation was composed with, by its number. -/
  operations : List Nat
  /-- The notifications that are outstanding, with the policies they are of. -/
  outstanding : List (Nat × PolicyState)
  /-- The labels of the `'stateChanged'` events. -/
  events : List String

def start : State := ⟨[], .closed, [], [], []⟩

/-- The number of the policy in place. -/
def State.current (s : State) : Nat := s.replaced.length

def State.stateOf (s : State) (policy : Nat) : Option PolicyState :=
  (s.replaced ++ [s.policy])[policy]?

/-- A transition of a policy. Its notification comes later. -/
def State.transition (s : State) (policy : Nat) (state : PolicyState) : State :=
  if policy = s.current then
    { s with policy := state, outstanding := s.outstanding ++ [(policy, state)] }
  else
    { s with
      replaced := s.replaced.set policy state
      outstanding := s.outstanding ++ [(policy, state)] }

def State.reset (s : State) : State :=
  { s with
    replaced := s.replaced ++ [s.policy]
    policy := .closed
    events := if s.policy = .closed then s.events else s.events ++ ["CLOSED"] }

/-- `getState().state` -/
def State.getState (s : State) : String := stateLabels s.policy

inductive Event where
  /-- an operation gets hold of the policy -/
  | composes
  /-- the operation runs through its policy, which may make a transition -/
  | executes (operation : Nat) (state : Option PolicyState)
  /-- the next notification of the policy arrives -/
  | notifies (policy : Nat)
  | resets
  deriving DecidableEq

def step (s : State) : Event → Option State
  | .composes => some { s with operations := s.operations ++ [s.current] }
  | .executes operation state =>
    match s.operations[operation]? with
    | none => none
    | some policy =>
      match state with
      | none => some s
      | some state => if s.stateOf policy = some state then none else some (s.transition policy state)
  | .notifies policy =>
    match s.outstanding.find? (·.1 = policy) with
    | none => none
    | some (_, state) => some { s with
        outstanding := s.outstanding.eraseP (·.1 = policy)
        events := s.events ++ [stateLabels state] }
  | .resets => some s.reset

/-- What a step can be. -/
inductive Steps (s : State) : Event → State → Prop
  | composes : Steps s .composes { s with operations := s.operations ++ [s.current] }
  | stays {operation} : Steps s (.executes operation none) s
  | transition {operation policy state} (hheld : s.operations[operation]? = some policy)
      (hchanges : s.stateOf policy ≠ some state) :
      Steps s (.executes operation (some state)) (s.transition policy state)
  | notified {policy state} (hnext : s.outstanding.find? (·.1 = policy) = some (policy, state)) :
      Steps s (.notifies policy) { s with
        outstanding := s.outstanding.eraseP (·.1 = policy)
        events := s.events ++ [stateLabels state] }
  | resets : Steps s .resets s.reset

variable {s t : State} {event : Event}

theorem step_cases (hs : step s event = some t) : Steps s event t := by
  cases event with
  | composes =>
    cases hs
    exact .composes
  | executes operation state =>
    simp only [step] at hs
    split at hs
    · cases hs
    · next policy hheld =>
      cases state with
      | none =>
        cases hs
        exact .stays
      | some state =>
        dsimp only at hs
        split at hs
        · cases hs
        · next hchanges =>
          cases hs
          exact .transition hheld hchanges
  | notifies policy =>
    simp only [step] at hs
    split at hs
    · cases hs
    · next policy' state hnext =>
      have hfound := List.find?_some hnext
      obtain rfl : policy' = policy := of_decide_eq_true hfound
      cases hs
      exact .notified hnext
  | resets =>
    cases hs
    exact .resets

/-! ## Labels and states -/

/-- With no notification outstanding, the last label is the state. -/
def Labelled (s : State) : Prop :=
  s.outstanding = [] → s.events.getLastD "CLOSED" = s.getState

/-- Only the policy in place makes transitions, and only after the notifications of the ones before
it; it is replaced once its own have arrived, or while it is closed. -/
def InPlace (s : State) : Event → Prop
  | .executes operation (some _) =>
    s.operations[operation]? = some s.current ∧ ∀ n ∈ s.outstanding, n.1 = s.current
  | .resets => s.outstanding = [] ∨ s.policy = .closed
  | _ => True

instance (s : State) (event : Event) : Decidable (InPlace s event) := by
  unfold InPlace
  split <;> infer_instance

/-- The notifications outstanding are of one policy, and the last of them, or else the last event, has
the state of the policy in place. -/
structure Settling (s : State) : Prop where
  one : ∃ policy, ∀ n ∈ s.outstanding, n.1 = policy
  last : (s.outstanding.map fun n => stateLabels n.2).getLastD (s.events.getLastD "CLOSED") =
    s.getState

theorem Settling.labelled (h : Settling s) : Labelled s := by
  intro hnone
  have hlast := h.last
  rw [hnone] at hlast
  exact hlast

theorem Settling.step (h : Settling s) (hplace : InPlace s event) (H : Steps s event t) :
    Settling t := by
  cases H with
  | composes => exact ⟨h.one, h.last⟩
  | stays => exact h
  | transition hheld hchanges =>
    obtain ⟨hcurrent, hown⟩ := hplace
    cases hheld.symm.trans hcurrent
    rw [State.transition, if_pos rfl]
    refine ⟨⟨s.current, fun n hn => ?_⟩, ?_⟩
    · rcases List.mem_append.mp hn with hn | hn
      · exact hown n hn
      · rw [List.mem_singleton.mp hn]
    · rw [List.map_append]
      exact List.getLastD_concat
  | @notified policy state hnext =>
    obtain ⟨policy', hone⟩ := h.one
    have hlast := h.last
    -- it is the first of the notifications, for all of them are of one policy
    cases hout : s.outstanding with
    | nil =>
      rw [hout] at hnext
      cases hnext
    | cons n rest =>
      have hmem : (policy, state) ∈ s.outstanding := List.mem_of_find?_eq_some hnext
      cases hone _ hmem
      rw [hout] at hone hnext hlast
      have hfirst : decide (n.1 = policy) = true := decide_eq_true (hone n List.mem_cons_self)
      have hhead : n = (policy, state) := by
        have hfound : (n :: rest).find? (·.1 = policy) = some n := List.find?_cons_of_pos hfirst
        exact Option.some.inj (hfound.symm.trans hnext)
      subst hhead
      have herase : ((policy, state) :: rest).eraseP (·.1 = policy) = rest :=
        List.eraseP_cons_of_pos hfirst
      refine ⟨⟨policy, fun n hn => ?_⟩, ?_⟩
      · dsimp only at hn
        rw [herase] at hn
        exact hone n (List.mem_cons_of_mem _ hn)
      · dsimp only
        rw [herase, List.getLastD_concat]
        rw [List.map_cons, List.getLastD_cons] at hlast
        exact hlast
  | resets =>
    refine ⟨h.one, ?_⟩
    have hlast := h.last
    rw [State.reset]
    rcases hplace with hnone | hclosed
    · dsimp only
      rw [hnone] at hlast ⊢
      split
      · next hclosed =>
        rw [State.getState, hclosed] at hlast
        exact hlast
      · exact List.getLastD_concat
    · dsimp only
      rw [if_pos hclosed, hlast, State.getState, hclosed]
      rfl

/-- In every run in which only the policy in place makes transitions, and is not replaced while it is
tripped and a notification is outstanding, the last label is the state whenever no notification is
outstanding. -/
theorem labels_match (hr : Reach step InPlace start s) : Labelled s := by
  have h : Settling s := by
    refine hr.invariant ⟨⟨0, fun n hn => absurd hn List.not_mem_nil⟩, rfl⟩ fun h hok hs => ?_
    exact h.step hok (step_cases hs)
  exact h.labelled

/-- A breaker that opens, is reset, and opens again. -/
theorem labels_match_reset : ∃ s, Reach step InPlace start s ∧
    s.events = ["OPEN", "CLOSED", "OPEN"] ∧ Labelled s := by
  have hrun : (run step InPlace start [.composes, .executes 0 (some .open_), .notifies 0, .resets,
      .composes, .executes 1 (some .open_), .notifies 1]).any (fun s =>
        decide (s.events = ["OPEN", "CLOSED", "OPEN"])) := by decide +kernel
  obtain ⟨s, hs, h⟩ := (Option.any_eq_true _ _).mp hrun
  exact ⟨s, reach_of_run hs, of_decide_eq_true h, labels_match (reach_of_run hs)⟩

/-- An operation that was composed before a reset opens the policy it holds: the breaker in place is
closed, and the last event says otherwise. -/
theorem replaced_policy_opens : ∃ s, Reach step anyStep start s ∧ s.outstanding = [] ∧
    s.events = ["OPEN"] ∧ s.getState = "CLOSED" ∧ ¬ Labelled s := by
  have hrun : (run step anyStep start [.composes, .resets, .executes 0 (some .open_),
      .notifies 0]).any (fun s => decide (s.outstanding = [] ∧ s.events = ["OPEN"] ∧
        s.getState = "CLOSED")) := by decide +kernel
  obtain ⟨s, hs, h⟩ := (Option.any_eq_true _ _).mp hrun
  obtain ⟨hout, hevents, hstate⟩ := of_decide_eq_true h
  refine ⟨s, reach_of_run hs, hout, hevents, hstate, fun hlabelled => ?_⟩
  have hlast := hlabelled hout
  rw [hevents, hstate] at hlast
  revert hlast
  decide +kernel

end CircuitBreaker
end RabbitMQ

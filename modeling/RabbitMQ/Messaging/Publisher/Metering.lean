import RabbitMQ.Messaging.Publisher
import RabbitMQ.Resilience.RateLimiter.Doubles.Exactness
import RabbitMQ.Resilience.RateLimiter.Windows

/-! The rate limiter meters calls, not attempts. A call is checked once, before its first attempt, and
the retries are free: the limiter is in the state that the checks alone have left, so that what its
strategy admits bounds what is published. -/

namespace RabbitMQ
namespace Publisher

open Transition RateLimiter

universe u

variable {β : Type u}

/-- What a run shows: what its limiter was asked, and the attempts that began. -/
inductive Entry where
  /-- the strategy is asked for a call, or by a read or a sweep -/
  | asked (i : Option Nat) (call : Limiter.Call) (admission : Option Admission)
  | attempted (i : Nat)

def Entry.call? : Entry → Option Limiter.Call
  | .asked _ call _ => some call
  | .attempted _ => none

def Entry.admission? : Entry → Option Admission
  | .asked _ _ admission => admission
  | .attempted _ => none

/-- The answer of a check that was made for this call. -/
def Entry.check? (i : Nat) : Entry → Option (Option Admission)
  | .asked j _ admission => if j = some i then some admission else none
  | .attempted _ => none

def Entry.attempts (i : Nat) : Entry → Bool
  | .asked _ _ _ => false
  | .attempted j => j = i

def asked (log : List Entry) : List Limiter.Call := log.filterMap Entry.call?

def admissions (log : List Entry) : List Admission := log.filterMap Entry.admission?

def checksOf (log : List Entry) (i : Nat) : List (Option Admission) := log.filterMap (Entry.check? i)

def attemptsOf (log : List Entry) (i : Nat) : Nat := log.countP (Entry.attempts i)

/-- `applyRateLimit` at the strategy: a check, and a read for the status of a refusal. A cost above
the capacity does not reach it. -/
def asks (limiter : RateLimiter) (i : Nat) (call : Call) (now : ℚ) : List Entry :=
  if call.cost > limiter.limiter.capacity then []
  else
    let check : Limiter.Call := ⟨now, .check call.key call.cost⟩
    match (limiter.limiter.step check).2 with
    | some admission => [.asked (some i) check (some admission)]
    | none => [.asked (some i) check none, .asked none ⟨now, .remaining call.key⟩ none]

def entries (b : Breaker β) (s : State β) : Event → List Entry
  | .probed i now =>
    match s.calls[i]?, s.limiter with
    | some call, some limiter => asks limiter i call now
    | _, _ => []
  | .attempts i now =>
    match (s.calls[i]?).map Call.stage with
    | some (.waiting policy _) =>
      if (s.policies[policy]?).any fun p => (b.admits p now).isSome then [.attempted i] else []
    | _ => []
  | _ => []

inductive Metered where
  | publisher (event : Event)
  /-- the interval of the limiter -/
  | sweeps (now : ℚ)
  /-- `getRateLimitStatus` -/
  | reads (key : String) (now : ℚ)

/-- A step of the publisher and its limiter, with what it shows. -/
def meter (b : Breaker β) (maxPriority : ℚ) (s : State β) : Metered → Option (State β × List Entry)
  | .publisher event => (step b maxPriority s event).map fun t => (t, entries b s event)
  | .sweeps now => s.limiter.map fun limiter =>
    ({ s with limiter := some (limiter.cleanup now) }, [.asked none ⟨now, .cleanup⟩ none])
  | .reads key now => s.limiter.map fun limiter =>
    ({ s with limiter := some (limiter.getStatus key now).2 },
      [.asked none ⟨now, .remaining key⟩ none])

variable {b : Breaker β} {maxPriority : ℚ} {s t : State β} {event : Event} {i : Nat} {call : Call}
  {now : ℚ} {log out : List Entry}

@[simp] theorem asked_append : asked (log ++ out) = asked log ++ asked out := List.filterMap_append

@[simp] theorem admissions_append : admissions (log ++ out) = admissions log ++ admissions out :=
  List.filterMap_append

@[simp] theorem checksOf_append : checksOf (log ++ out) i = checksOf log i ++ checksOf out i :=
  List.filterMap_append

@[simp] theorem attemptsOf_append : attemptsOf (log ++ out) i = attemptsOf log i + attemptsOf out i :=
  List.countP_append

/-! ## The limiter -/

/-- The strategy is where what it was asked has left it, and no key is blocked. -/
structure Agrees (limiter : Limiter) (s : State β) (log : List Entry) : Prop where
  state : ∃ r, s.limiter = some r ∧ r.blocked = .empty ∧ r.limiter = limiter.run (asked log)
  answers : admissions log = limiter.admissions (asked log)

variable {limiter : Limiter}

/-- The strategy is asked what a step shows. -/
theorem Agrees.ask (h : Agrees limiter s log) {r : RateLimiter} (hr : s.limiter = some r)
    (hafter : ∃ r', t.limiter = some r' ∧ r'.blocked = .empty ∧ r'.limiter = r.limiter.run (asked out))
    (hout : admissions out = r.limiter.admissions (asked out)) :
    Agrees limiter t (log ++ out) := by
  obtain ⟨⟨r₀, hr₀, -, hrun⟩, hanswers⟩ := h
  cases hr.symm.trans hr₀
  obtain ⟨r', hr', hblocked', hrun'⟩ := hafter
  refine ⟨⟨r', hr', hblocked', ?_⟩, ?_⟩
  · rw [hrun', hrun, asked_append, Limiter.run_append]
  · rw [admissions_append, asked_append, Limiter.admissions_append, hanswers, hout, hrun]

/-- A step that leaves the limiter alone. -/
theorem Agrees.same (h : Agrees limiter s log) (hlimiter : t.limiter = s.limiter)
    (hasked : asked out = []) (hadmissions : admissions out = []) :
    Agrees limiter t (log ++ out) := by
  obtain ⟨⟨r, hr, hblocked, hrun⟩, hlog⟩ := h
  refine ⟨⟨r, hlimiter.trans hr, hblocked, ?_⟩, ?_⟩
  · rw [asked_append, hasked, List.append_nil]
    exact hrun
  · rw [asked_append, hasked, admissions_append, hadmissions, List.append_nil, List.append_nil]
    exact hlog

/-- What `applyRateLimit` does to a call, with what the strategy was asked. -/
inductive Charges (s : State β) (r : RateLimiter) (i : Nat) (call : Call) (now : ℚ) :
    State β → List Entry → Prop
  | unsatisfiable {error} : Charges s r i call now
      { s.move i call (.rejected error) with limiter := some r } []
  | granted {a : Admission} (hkey : a.key = call.key) (hcost : a.cost = call.cost)
      (hcheck : (r.limiter.step ⟨now, .check call.key call.cost⟩).2 = some a) :
      Charges s r i call now
        { s.move i call (.limited a.wait) with
          limiter := some { r with
            limiter := (r.limiter.step ⟨now, .check call.key call.cost⟩).1 } }
        [.asked (some i) ⟨now, .check call.key call.cost⟩ (some a)]
  | refused {error} (hcheck : (r.limiter.step ⟨now, .check call.key call.cost⟩).2 = none) :
      Charges s r i call now
        { s.move i call (.rejected error) with
          limiter := some { r with
            limiter := r.limiter.run [⟨now, .check call.key call.cost⟩, ⟨now, .remaining call.key⟩] } }
        [.asked (some i) ⟨now, .check call.key call.cost⟩ none, .asked none ⟨now, .remaining call.key⟩ none]

theorem applyRateLimit_charges {r : RateLimiter} (hr : s.limiter = some r)
    (hblocked : r.blocked = .empty) (i : Nat) (call : Call) (now : ℚ) :
    Charges s r i call now (s.applyRateLimit i call now) (asks r i call now) := by
  have hnone : r.blocked.get? call.key = none := by rw [hblocked]; rfl
  unfold State.applyRateLimit asks
  rw [hr]
  dsimp only
  by_cases hover : call.cost > r.limiter.capacity
  · have hcheck : r.checkRateLimit call.key call.cost now =
        (.error (.costUnsatisfiable call.cost r.strategy r.limiter.capacity), r) := by
      rw [RateLimiter.checkRateLimit, if_pos hover]
    rw [hcheck, if_pos hover]
    exact .unsatisfiable
  · have hcheck : r.checkRateLimit call.key call.cost now =
        (.ok (r.limiter.check call.key call.cost now).1,
          { r with limiter := (r.limiter.check call.key call.cost now).2 }) := by
      rw [RateLimiter.checkRateLimit, if_neg hover, hnone]
    have hstep : (r.limiter.step ⟨now, .check call.key call.cost⟩).2 =
        if (r.limiter.check call.key call.cost now).1.allowed then
          some ⟨call.key, call.cost, now, (r.limiter.check call.key call.cost now).1.wait⟩
        else none := rfl
    rw [hcheck, if_neg hover]
    dsimp only
    cases hallowed : (r.limiter.check call.key call.cost now).1.allowed with
    | true =>
      rw [hallowed, if_pos rfl] at hstep
      rw [hstep]
      exact .granted rfl rfl hstep
    | false =>
      rw [hallowed, if_neg Bool.false_ne_true] at hstep
      rw [hstep]
      exact .refused hstep

/-- Only a probe that found a channel leads to the limiter. -/
theorem step_limiter (hs : step b maxPriority s event = some t) (hevent : ∀ i now, event ≠ .probed i now) :
    t.limiter = s.limiter ∧ asked (entries b s event) = [] ∧ admissions (entries b s event) = [] := by
  have hattempts : ∀ {i now}, asked (entries b s (.attempts i now)) = [] ∧
      admissions (entries b s (.attempts i now)) = [] := by
    intro i now
    unfold entries
    dsimp only
    split
    · split
      · exact ⟨rfl, rfl⟩
      · exact ⟨rfl, rfl⟩
    · exact ⟨rfl, rfl⟩
  cases event with
  | probed i now => exact absurd rfl (hevent i now)
  | attempts i now =>
    refine ⟨?_, hattempts⟩
    cases step_cases hs with
    | rejects h => exact absurd rfl (h i now)
    | refused => rfl
    | attempts =>
      unfold State.attempt
      split
      · rfl
      · rfl
  | call | probeFails | proceeds | prepared | unprepared | succeeds | fails | poolInstalled
  | poolCleared | resets =>
    refine ⟨?_, rfl, rfl⟩
    cases step_cases hs <;> rfl

/-- A probe that found a channel leads to the limiter. -/
theorem step_probed (hs : step b maxPriority s (.probed i now) = some t) : ∃ call,
    s.calls[i]? = some call ∧ call.stage = .probing ∧ t = s.applyRateLimit i call now := by
  obtain ⟨call, hcall, hs⟩ := Option.bind_eq_some_iff.mp hs
  split at hs
  · next hstage =>
    cases hs
    exact ⟨call, hcall, hstage, rfl⟩
  · cases hs

theorem Agrees.step (h : Agrees limiter s log) {event : Metered}
    (hs : meter b maxPriority s event = some (t, out)) : Agrees limiter t (log ++ out) := by
  obtain ⟨r, hr, hblocked, -⟩ := h.state
  cases event with
  | publisher event =>
    obtain ⟨t, hstep, heq⟩ := Option.map_eq_some_iff.mp hs
    cases heq
    by_cases hprobed : ∃ i now, event = .probed i now
    · obtain ⟨i, now, rfl⟩ := hprobed
      obtain ⟨call, hcall, -, rfl⟩ := step_probed hstep
      have hentries : entries b s (.probed i now) = asks r i call now := by
        simp only [entries, hcall, hr]
      have hcharges := applyRateLimit_charges hr hblocked i call now
      rw [hentries]
      generalize s.applyRateLimit i call now = t, asks r i call now = out at hcharges ⊢
      cases hcharges with
      | unsatisfiable => exact h.ask hr ⟨r, rfl, hblocked, rfl⟩ rfl
      | granted hkey hcost hcheck =>
        refine h.ask hr ⟨_, rfl, hblocked, rfl⟩ ?_
        change _ = (r.limiter.step _).2.toList ++ []
        rw [hcheck]
        rfl
      | refused hcheck =>
        refine h.ask hr ⟨_, rfl, hblocked, rfl⟩ ?_
        change _ = (r.limiter.step _).2.toList ++ []
        rw [hcheck]
        rfl
    · obtain ⟨hlimiter, hasked, hadmissions⟩ :=
        step_limiter hstep fun i now heq => hprobed ⟨i, now, heq⟩
      exact h.same hlimiter hasked hadmissions
  | sweeps now =>
    obtain ⟨r', hr', heq⟩ := Option.map_eq_some_iff.mp hs
    cases heq
    cases hr.symm.trans hr'
    refine h.ask hr ⟨_, rfl, ?_, rfl⟩ rfl
    rw [RateLimiter.cleanup, hblocked]
    rfl
  | reads key now =>
    obtain ⟨r', hr', heq⟩ := Option.map_eq_some_iff.mp hs
    cases heq
    cases hr.symm.trans hr'
    exact h.ask hr ⟨_, rfl, hblocked, rfl⟩ rfl

/-! ## The calls -/

/-- The limiter has admitted the call, once. -/
def Admitted (call : Call) (checks : List (Option Admission)) : Prop :=
  ∃ a, checks = [some a] ∧ a.key = call.key ∧ a.cost = call.cost

/-- How far a call is, with the checks made for it and the attempts that began. -/
def Stands (call : Call) (checks : List (Option Admission)) (attempts : Nat) : Prop :=
  match call.stage with
  | .probing => checks = [] ∧ attempts = 0
  | .limited _ | .preparing => Admitted call checks ∧ attempts = 0
  | .waiting _ attempt => Admitted call checks ∧ attempts = attempt ∧ attempt < call.attempts
  | .running _ attempt => Admitted call checks ∧ attempts = attempt + 1 ∧ attempt < call.attempts
  | .resolved => Admitted call checks ∧ attempts ≤ call.attempts
  | .rejected _ =>
    checks.length ≤ 1 ∧ (attempts = 0 ∨ Admitted call checks ∧ attempts ≤ call.attempts)

structure Standing (s : State β) (log : List Entry) : Prop where
  calls : ∀ {i call}, s.calls[i]? = some call →
    0 < call.attempts ∧ Stands call (checksOf log i) (attemptsOf log i)
  later : ∀ {i}, s.calls.length ≤ i → checksOf log i = [] ∧ attemptsOf log i = 0

/-- A call goes on, and what is shown is about it. -/
theorem Standing.move (h : Standing s log) (hcall : s.calls[i]? = some call) {stage : Stage}
    (hcalls : t.calls = s.calls.set i { call with stage := stage })
    (hout : ∀ j, j ≠ i → checksOf out j = [] ∧ attemptsOf out j = 0)
    (hstands : Stands { call with stage := stage } (checksOf log i ++ checksOf out i)
      (attemptsOf log i + attemptsOf out i)) : Standing t (log ++ out) := by
  have hlt : i < s.calls.length := (List.getElem?_eq_some_iff.mp hcall).1
  refine ⟨fun {j call'} hj => ?_, fun {j} hj => ?_⟩
  · rw [hcalls] at hj
    by_cases heq : j = i
    · subst heq
      rw [List.getElem?_set_self hlt] at hj
      cases hj
      rw [checksOf_append, attemptsOf_append]
      exact ⟨(h.calls hcall).1, hstands⟩
    · rw [List.getElem?_set_ne (Ne.symm heq)] at hj
      rw [checksOf_append, attemptsOf_append, (hout j heq).1, (hout j heq).2, List.append_nil]
      exact h.calls hj
  · rw [hcalls, List.length_set] at hj
    obtain ⟨hchecks, hattempts⟩ := h.later hj
    obtain ⟨hchecks', hattempts'⟩ := hout j (Nat.ne_of_gt (Nat.lt_of_lt_of_le hlt hj))
    rw [checksOf_append, attemptsOf_append, hchecks, hchecks', hattempts, hattempts']
    exact ⟨rfl, rfl⟩

theorem Standing.same (h : Standing s log) (hcalls : t.calls = s.calls)
    (hout : ∀ j, checksOf out j = [] ∧ attemptsOf out j = 0) : Standing t (log ++ out) := by
  refine ⟨fun {j call} hj => ?_, fun {j} hj => ?_⟩
  · rw [checksOf_append, attemptsOf_append, (hout j).1, (hout j).2, List.append_nil]
    exact h.calls (hcalls ▸ hj)
  · rw [checksOf_append, attemptsOf_append, (hout j).1, (hout j).2, List.append_nil]
    exact h.later (hcalls ▸ hj)

/-- A call that joins is not checked yet, or refused. -/
theorem Standing.join (h : Standing s log) (hcalls : t.calls = s.calls ++ [call])
    (hattempts : 0 < call.attempts) (hstage : call.stage = .probing ∨ ∃ e, call.stage = .rejected e) :
    Standing t log := by
  obtain ⟨hchecks, hnone⟩ := h.later (i := s.calls.length) (Nat.le_refl _)
  refine ⟨fun {j call'} hj => ?_, fun {j} hj => ?_⟩
  · rw [hcalls] at hj
    rcases Nat.lt_or_ge j s.calls.length with hlt | hge
    · rw [List.getElem?_append_left hlt] at hj
      exact h.calls hj
    · rw [List.getElem?_append_right hge, List.getElem?_singleton] at hj
      split at hj
      · next hzero =>
        cases hj
        obtain rfl : j = s.calls.length := by omega
        refine ⟨hattempts, ?_⟩
        rw [hchecks, hnone]
        rcases hstage with hstage | ⟨e, hstage⟩
        · rw [Stands, hstage]
          exact ⟨rfl, rfl⟩
        · rw [Stands, hstage]
          exact ⟨Nat.zero_le _, .inl rfl⟩
      · cases hj
  · rw [hcalls, List.length_append] at hj
    exact h.later (Nat.le_trans (Nat.le_add_right _ _) hj)

theorem attempts_pos (method : Method) (options : Options) : 0 < method.attempts options := by
  have hpolicy : ∀ maxRetries, 0 < PublishBatch.attempts maxRetries := by
    intro maxRetries
    unfold PublishBatch.attempts
    omega
  cases method with
  | publishAsync | publishAsyncBatch => exact Nat.one_pos
  | publish | publishBatch | publishDelayed | request => exact hpolicy _

/-- Nothing is shown about any call. -/
theorem checksOf_silent (h : ∀ e ∈ out, ∃ call admission, e = .asked none call admission) (j : Nat) :
    checksOf out j = [] ∧ attemptsOf out j = 0 := by
  refine ⟨List.filterMap_eq_nil_iff.mpr fun e he => ?_, List.countP_eq_zero.mpr fun e he => ?_⟩
  · obtain ⟨call, admission, rfl⟩ := h e he
    rfl
  · obtain ⟨call, admission, rfl⟩ := h e he
    exact Bool.false_ne_true

theorem Standing.charge (h : Standing s log) {r : RateLimiter} (hcall : s.calls[i]? = some call)
    (hstage : call.stage = .probing) (H : Charges s r i call now t out) :
    Standing t (log ++ out) := by
  have hstands := (h.calls hcall).2
  rw [Stands, hstage] at hstands
  obtain ⟨hchecks, hattempts⟩ := hstands
  cases H with
  | unsatisfiable =>
    refine h.move hcall rfl (fun _ _ => ⟨rfl, rfl⟩) ?_
    rw [hchecks, hattempts]
    exact ⟨Nat.zero_le _, .inl rfl⟩
  | @granted a hkey hcost hcheck =>
    have hout : ∀ j, checksOf [.asked (some i) ⟨now, .check call.key call.cost⟩ (some a)] j =
        if i = j then [some a] else [] := by
      intro j
      by_cases hj : i = j <;> simp [checksOf, Entry.check?, hj]
    refine h.move hcall rfl (fun j hj => ⟨?_, rfl⟩) ?_
    · rw [hout, if_neg (Ne.symm hj)]
    · rw [hchecks, hattempts, hout, if_pos rfl]
      exact ⟨⟨a, rfl, hkey, hcost⟩, rfl⟩
  | refused hcheck =>
    have hout : ∀ j, checksOf [.asked (some i) ⟨now, .check call.key call.cost⟩ none,
        .asked none ⟨now, .remaining call.key⟩ none] j = if i = j then [none] else [] := by
      intro j
      by_cases hj : i = j <;> simp [checksOf, Entry.check?, hj]
    refine h.move hcall rfl (fun j hj => ⟨?_, rfl⟩) ?_
    · rw [hout, if_neg (Ne.symm hj)]
    · rw [hchecks, hattempts, hout, if_pos rfl]
      exact ⟨Nat.le_refl _, .inl rfl⟩

/-- A call that has begun its attempts fails one of them. -/
theorem Stands.fail {policy attempt attempts : Nat} {checks : List (Option Admission)}
    (hadmitted : Admitted call checks) (hattempts : attempts = attempt + 1)
    (hlt : attempt < call.attempts) (error : Error) :
    Stands { call with stage :=
      if attempt + 1 < call.attempts then .waiting policy (attempt + 1) else .rejected error }
      checks attempts := by
  have hone : checks.length ≤ 1 := by
    obtain ⟨a, rfl, -⟩ := hadmitted
    exact Nat.le_refl _
  by_cases hmore : attempt + 1 < call.attempts
  · rw [if_pos hmore]
    exact ⟨hadmitted, hattempts, hmore⟩
  · rw [if_neg hmore]
    exact ⟨hone, .inr ⟨hadmitted, hattempts.trans_le hlt⟩⟩

/-- An attempt that the breaker lets run is the next one of its call. -/
theorem Standing.attempt (h : Standing s log) {policy attempt : Nat} {policies : List β}
    (hcall : s.calls[i]? = some call) (hstage : call.stage = .waiting policy attempt) (now : ℚ) :
    Standing (State.attempt b { s with policies := policies } i call policy attempt now)
      (log ++ [.attempted i]) := by
  have hstands := (h.calls hcall).2
  rw [Stands, hstage] at hstands
  obtain ⟨hadmitted, hattempts, hlt⟩ := hstands
  have hout : ∀ j, attemptsOf [.attempted i] j = if i = j then 1 else 0 := by
    intro j
    by_cases hj : i = j <;> simp [attemptsOf, Entry.attempts, hj]
  have hother : ∀ j, j ≠ i → checksOf [.attempted i] j = [] ∧ attemptsOf [.attempted i] j = 0 := by
    intro j hj
    exact ⟨rfl, (hout j).trans (if_neg (Ne.symm hj))⟩
  have hchecks : checksOf log i ++ checksOf [.attempted i] i = checksOf log i := List.append_nil _
  unfold State.attempt
  split
  · refine h.move hcall rfl hother ?_
    rw [hchecks, hattempts, hout, if_pos rfl]
    exact Stands.fail hadmitted rfl hlt _
  · refine h.move hcall rfl hother ?_
    rw [hchecks, hattempts, hout, if_pos rfl]
    exact ⟨hadmitted, rfl, hlt⟩

theorem Standing.publisher (h : Standing s log) (hagrees : Agrees limiter s log)
    (hs : step b maxPriority s event = some t) : Standing t (log ++ entries b s event) := by
  obtain ⟨r, hr, hblocked, -⟩ := hagrees.state
  -- a call that goes on, with nothing shown
  have hmove : ∀ {i call stage} {t : State β}, s.calls[i]? = some call →
      t.calls = s.calls.set i { call with stage := stage } →
      Stands { call with stage := stage } (checksOf log i) (attemptsOf log i) →
      Standing t (log ++ []) := by
    intro i call stage t hcall hcalls hstands
    refine h.move hcall hcalls (fun _ _ => ⟨rfl, rfl⟩) ?_
    rw [show checksOf [] i = [] from rfl, List.append_nil]
    exact hstands
  have hreject : ∀ {i call error}, s.calls[i]? = some call →
      call.stage = .probing ∨ call.stage = .preparing →
      Standing (s.move i call (.rejected error)) (log ++ []) := by
    intro i call error hcall hstage
    refine hmove hcall rfl ?_
    have hstands := (h.calls hcall).2
    rcases hstage with hstage | hstage
    · rw [Stands, hstage] at hstands
      rw [hstands.1, hstands.2]
      exact ⟨Nat.zero_le _, .inl rfl⟩
    · rw [Stands, hstage] at hstands
      obtain ⟨⟨a, hchecks, -⟩, hattempts⟩ := hstands
      rw [hchecks, hattempts]
      exact ⟨Nat.le_refl _, .inl rfl⟩
  cases event with
  | call method exchangeType routingKey options =>
    cases hs
    rw [show entries b s (.call method exchangeType routingKey options) = [] from rfl,
      List.append_nil]
    refine h.join rfl (attempts_pos method options) ?_
    dsimp only
    split
    · exact .inr ⟨_, rfl⟩
    · split
      · exact .inr ⟨_, rfl⟩
      · exact .inl rfl
  | probed i now =>
    obtain ⟨call, hcall, hstage, rfl⟩ := step_probed hs
    have hentries : entries b s (.probed i now) = asks r i call now := by
      simp only [entries, hcall, hr]
    rw [hentries]
    exact h.charge hcall hstage (applyRateLimit_charges hr hblocked i call now)
  | probeFails i =>
    cases step_cases hs with
    | rejects _ hcall hstage => exact hreject hcall hstage
  | unprepared i lost =>
    cases step_cases hs with
    | rejects _ hcall hstage => exact hreject hcall hstage
  | proceeds i =>
    cases step_cases hs with
    | rejects _ hcall hstage => exact hreject hcall hstage
    | @proceeds _ wait call hcall hstage =>
      have hstands := (h.calls hcall).2
      rw [Stands, hstage] at hstands
      refine hmove hcall rfl ?_
      split
      · exact hstands
      · exact ⟨hstands.1, hstands.2, (h.calls hcall).1⟩
  | prepared i =>
    cases step_cases hs with
    | rejects _ hcall hstage => exact hreject hcall hstage
    | @prepared _ call hcall hstage =>
      have hstands := (h.calls hcall).2
      rw [Stands, hstage] at hstands
      exact hmove hcall rfl ⟨hstands.1, hstands.2, (h.calls hcall).1⟩
  | attempts i now =>
    cases step_cases hs with
    | rejects hevent => exact absurd rfl (hevent i now)
    | @refused _ _ call policy attempt p hcall hstage hpolicy hopen =>
      have hentries : entries b s (.attempts i now) = [] := by
        simp [entries, hcall, hstage, hpolicy, hopen]
      have hstands := (h.calls hcall).2
      rw [Stands, hstage] at hstands
      obtain ⟨hadmitted, hattempts, hlt⟩ := hstands
      rw [hentries]
      refine hmove hcall rfl ⟨?_, .inr ⟨hadmitted, hattempts.trans_le (Nat.le_of_lt hlt)⟩⟩
      obtain ⟨a, hchecks, -⟩ := hadmitted
      rw [hchecks]
      exact Nat.le_refl _
    | @attempts _ _ call policy attempt p p' hcall hstage hpolicy hadmits =>
      have hentries : entries b s (.attempts i now) = [.attempted i] := by
        simp [entries, hcall, hstage, hpolicy, hadmits]
      rw [hentries]
      exact h.attempt hcall hstage now
  | succeeds i =>
    cases step_cases hs with
    | rejects _ hcall hstage => exact hreject hcall hstage
    | @succeeds _ call policy attempt hcall hstage =>
      have hstands := (h.calls hcall).2
      rw [Stands, hstage] at hstands
      obtain ⟨hadmitted, hattempts, hlt⟩ := hstands
      exact hmove hcall rfl ⟨hadmitted, hattempts.trans_le hlt⟩
  | fails i now =>
    cases step_cases hs with
    | rejects _ hcall hstage => exact hreject hcall hstage
    | @fails _ _ call policy attempt hcall hstage =>
      have hstands := (h.calls hcall).2
      rw [Stands, hstage] at hstands
      obtain ⟨hadmitted, hattempts, hlt⟩ := hstands
      exact hmove hcall rfl (Stands.fail hadmitted hattempts hlt _)
  | poolInstalled pool =>
    cases hs
    exact h.same rfl fun _ => ⟨rfl, rfl⟩
  | poolCleared =>
    cases hs
    exact h.same rfl fun _ => ⟨rfl, rfl⟩
  | resets =>
    cases hs
    exact h.same rfl fun _ => ⟨rfl, rfl⟩

theorem Standing.step (h : Standing s log) (hagrees : Agrees limiter s log) {event : Metered}
    (hs : meter b maxPriority s event = some (t, out)) : Standing t (log ++ out) := by
  cases event with
  | publisher event =>
    obtain ⟨t, hstep, heq⟩ := Option.map_eq_some_iff.mp hs
    cases heq
    exact h.publisher hagrees hstep
  | sweeps now =>
    obtain ⟨r, hr, heq⟩ := Option.map_eq_some_iff.mp hs
    cases heq
    refine h.same rfl (checksOf_silent fun e he => ?_)
    obtain rfl := List.mem_singleton.mp he
    exact ⟨_, _, rfl⟩
  | reads key now =>
    obtain ⟨r, hr, heq⟩ := Option.map_eq_some_iff.mp hs
    cases heq
    refine h.same rfl (checksOf_silent fun e he => ?_)
    obtain rfl := List.mem_singleton.mp he
    exact ⟨_, _, rfl⟩

/-! ## Every run -/

theorem metered_of_reach {r : RateLimiter} (hblocked : r.blocked = .empty)
    {w : State β × List Entry}
    (hr : Reach (logged (meter b maxPriority)) anyStep (start b (some r), []) w) :
    Agrees r.limiter w.1 w.2 ∧ Standing w.1 w.2 := by
  refine hr.invariant (I := fun w => Agrees r.limiter w.1 w.2 ∧ Standing w.1 w.2)
    ⟨⟨⟨r, rfl, hblocked, rfl⟩, rfl⟩, ?_, fun _ => ⟨rfl, rfl⟩⟩ fun {w w' event} h _ hlogged => ?_
  · intro i call hcall
    cases hcall
  · obtain ⟨t, out, hs, rfl⟩ := logged_eq_some hlogged
    exact ⟨h.1.step hs, h.2.step h.1 hs⟩

/-- What a fixed window admits in each window. -/
theorem admissions_within (maxRequests windowMs : ℚ) {calls : List Limiter.Call}
    (hsorted : calls.Pairwise fun call call' => call.now ≤ call'.now)
    (hcosts : ∀ call ∈ calls, call.CostNonneg) (key : String) (k : ℤ) :
    total ((Limiter.fixedWindow (.new maxRequests windowMs)).admissions calls)
      (FixedWindowStrategy.ofWindow windowMs key k) ≤ max 0 maxRequests := by
  cases calls with
  | nil => exact le_max_left _ _
  | cons call calls =>
    obtain ⟨last, hlast⟩ := Limiter.exists_after (call :: calls)
    obtain ⟨s', -, hmax, hwindow, hcounts⟩ :=
      (FixedWindowStrategy.counted_new maxRequests windowMs call.now).run
        (Observation.le_of_sorted hsorted) hsorted hcosts (hlast call List.mem_cons_self) hlast
    have hwithin := hcounts.within key k
    rw [hmax, hwindow] at hwithin
    exact hwithin

/-- A call is checked once at most, runs no more attempts than it may, and none before its own check
was granted; what a retry does the limiter never sees: its strategy is where the checks of the calls,
the reads and the sweeps have left it, and where these need no rounding the limiter of doubles
answers them alike. So a fixed window bounds what is published in each window. -/
theorem publishing_is_metered {r : RateLimiter} (hblocked : r.blocked = .empty)
    {w : State β × List Entry}
    (hr : Reach (logged (meter b maxPriority)) anyStep (start b (some r), []) w) :
    (∀ {i call}, w.1.calls[i]? = some call →
      (checksOf w.2 i).length ≤ 1 ∧ attemptsOf w.2 i ≤ call.attempts ∧
        (0 < attemptsOf w.2 i → Admitted call (checksOf w.2 i))) ∧
    (∃ r', w.1.limiter = some r' ∧ r'.limiter = r.limiter.run (asked w.2)) ∧
    (Observation.Each Doubles.Limiter.step Doubles.Limiter.Exact (.ofRat r.limiter) (asked w.2) →
      (Doubles.Limiter.ofRat r.limiter).admissions (asked w.2) = admissions w.2) ∧
    ∀ maxRequests windowMs, r.limiter = .fixedWindow (.new maxRequests windowMs) →
      (asked w.2).Pairwise (fun call call' => call.now ≤ call'.now) →
      (∀ call ∈ asked w.2, call.CostNonneg) → ∀ key k,
        total (admissions w.2) (FixedWindowStrategy.ofWindow windowMs key k) ≤ max 0 maxRequests := by
  obtain ⟨hagrees, hstanding⟩ := metered_of_reach hblocked hr
  refine ⟨fun {i call} hcall => ?_, ?_, fun hexact => ?_,
    fun maxRequests windowMs hfixed hsorted hcosts key k => ?_⟩
  · have hstands := (hstanding.calls hcall).2
    have hone : Admitted call (checksOf w.2 i) → (checksOf w.2 i).length ≤ 1 := by
      rintro ⟨a, hchecks, -⟩
      rw [hchecks]
      exact Nat.le_refl _
    unfold Stands at hstands
    split at hstands
    · rw [hstands.1, hstands.2]
      exact ⟨Nat.zero_le _, Nat.zero_le _, fun h => absurd h (Nat.lt_irrefl 0)⟩
    · exact ⟨hone hstands.1, hstands.2 ▸ Nat.zero_le _, fun _ => hstands.1⟩
    · exact ⟨hone hstands.1, hstands.2 ▸ Nat.zero_le _, fun _ => hstands.1⟩
    · exact ⟨hone hstands.1, hstands.2.1.trans_le (Nat.le_of_lt hstands.2.2), fun _ => hstands.1⟩
    · exact ⟨hone hstands.1, hstands.2.1.trans_le hstands.2.2, fun _ => hstands.1⟩
    · exact ⟨hone hstands.1, hstands.2, fun _ => hstands.1⟩
    · rcases hstands.2 with hzero | ⟨hadmitted, hle⟩
      · exact ⟨hstands.1, hzero ▸ Nat.zero_le _, fun h => absurd hzero (Nat.ne_of_gt h)⟩
      · exact ⟨hstands.1, hle, fun _ => hadmitted⟩
  · obtain ⟨r', hr', -, hrun⟩ := hagrees.state
    exact ⟨r', hr', hrun⟩
  · rw [hagrees.answers]
    exact (Doubles.Limiter.run_ofRat r.limiter hexact).1
  · rw [hagrees.answers, hfixed]
    exact admissions_within maxRequests windowMs hsorted hcosts key k

/-- Two messages in a second. -/
private def twoASecond : RateLimiter where
  windowMs := 1000
  maxRequests := 2
  strategy := "fixed-window"
  burstable := false
  limiter := .fixedWindow (.new 2 1000)
  blocked := .empty

/-- A batch of two is published at the second attempt; another message is refused until the next
window. -/
theorem publishing_is_metered_retried : ∃ w : State Circuit × List Entry,
    attemptsOf w.2 0 = 2 ∧ checksOf w.2 0 = [some ⟨"orders", 2, 10, 0⟩] ∧
      checksOf w.2 1 = [none] ∧ attemptsOf w.2 1 = 0 ∧
      (Doubles.Limiter.ofRat twoASecond.limiter).admissions (asked w.2) = admissions w.2 ∧
      total (admissions w.2) (FixedWindowStrategy.ofWindow 1000 "orders" 0) ≤ max 0 2 := by
  have hrun : (run (logged (meter (consecutive 5 60000) 10)) anyStep
      (start (consecutive 5 60000) (some twoASecond), []) ([.publisher (.poolInstalled 0),
        .publisher (.call (.publishBatch (some 2)) (some "topic") (some "orders") {}),
        .publisher (.probed 0 10), .publisher (.proceeds 0), .publisher (.attempts 0 10),
        .publisher (.fails 0 20), .sweeps 500, .publisher (.attempts 0 600),
        .publisher (.succeeds 0),
        .publisher (.call .publish (some "topic") (some "orders") {}),
        .publisher (.probed 1 900)])).any fun w =>
          decide (attemptsOf w.2 0 = 2 ∧ checksOf w.2 0 = [some ⟨"orders", 2, 10, 0⟩] ∧
            checksOf w.2 1 = [none] ∧ attemptsOf w.2 1 = 0 ∧ asked w.2 =
              [⟨10, .check "orders" 2⟩, ⟨500, .cleanup⟩, ⟨900, .check "orders" 1⟩,
                ⟨900, .remaining "orders"⟩]) := by decide +kernel
  obtain ⟨w, hw, h⟩ := (Option.any_eq_true _ _).mp hrun
  obtain ⟨hattempts, hchecks, hrefused, hnone, hasked⟩ := of_decide_eq_true h
  have hsorted : (asked w.2).Pairwise fun call call' => call.now ≤ call'.now := by
    rw [hasked]
    decide +kernel
  have hcosts : ∀ call ∈ asked w.2, call.CostNonneg := by
    rw [hasked]
    simp [Limiter.Call.CostNonneg]
  have hexact : Observation.Each Doubles.Limiter.step Doubles.Limiter.Exact
      (.ofRat twoASecond.limiter) (asked w.2) := by
    rw [hasked]
    decide +kernel
  obtain ⟨-, -, hdoubles, hwithin⟩ := publishing_is_metered (r := twoASecond) rfl (reach_of_run hw)
  exact ⟨w, hattempts, hchecks, hrefused, hnone, hdoubles hexact,
    hwithin 2 1000 rfl hsorted hcosts "orders" 0⟩

end Publisher
end RabbitMQ

import RabbitMQ.Resilience.RateLimiter.Isolation

/-! A block only refuses. Until it ends every check of its key is refused; what is told after that,
and what other keys are told, is what would have been told without the block and without the checks
it refused. -/

namespace RabbitMQ
namespace RateLimiter

open Observation

variable {r r' : RateLimiter} {key : String} {expiry t now : ℚ} {call : Call}

/-- A check of the key before the block ends. -/
def Call.Shut (key : String) (expiry : ℚ) (call : Call) : Prop :=
  match call.operation with
  | .checkRateLimit k _ => k = key ∧ call.now < expiry
  | _ => False

instance (key : String) (expiry : ℚ) : DecidablePred (Call.Shut key expiry) := fun call =>
  match call with
  | ⟨now, .checkRateLimit k _⟩ => inferInstanceAs (Decidable (k = key ∧ now < expiry))
  | ⟨_, .blockKey _ _⟩ | ⟨_, .reset _⟩ | ⟨_, .getStatus _⟩ | ⟨_, .getRemainingTokens _⟩
  | ⟨_, .cleanup⟩ => inferInstanceAs (Decidable False)

/-- The call neither blocks nor resets the key. -/
def Call.Leaves (key : String) (call : Call) : Prop :=
  match call.operation with
  | .blockKey k _ | .reset k => k ≠ key
  | _ => True

instance (key : String) : DecidablePred (Call.Leaves key) := fun call =>
  match call with
  | ⟨_, .blockKey k _⟩ | ⟨_, .reset k⟩ => inferInstanceAs (Decidable (k ≠ key))
  | ⟨_, .checkRateLimit _ _⟩ | ⟨_, .getStatus _⟩ | ⟨_, .getRemainingTokens _⟩
  | ⟨_, .cleanup⟩ => inferInstanceAs (Decidable True)

/-- The step of a call, with the answer to a check that the block does not refuse. -/
def admitted (key : String) (expiry : ℚ) (r : RateLimiter) (call : Call) :
    RateLimiter × Option (Except RateLimitError Verdict) :=
  ((r.step call).1, if call.Shut key expiry then none else (r.step call).2)

/-- The step of a call, with the answer to a check that the block refuses. -/
def refused (key : String) (expiry : ℚ) (r : RateLimiter) (call : Call) :
    RateLimiter × Option (Except RateLimitError Verdict) :=
  ((r.step call).1, if call.Shut key expiry then (r.step call).2 else none)

/-- A refusal, of what may or may not ever be admitted. -/
def Refusal (answer : Except RateLimitError Verdict) : Prop :=
  answer = .ok { allowed := false } ∨
    ∃ cost strategy capacity, answer = .error (.costUnsatisfiable cost strategy capacity)

/-- A limiter in which the key is blocked, beside one in which it is not. -/
structure Beside (key : String) (expiry t : ℚ) (r r' : RateLimiter) : Prop where
  same : r' = { r with blocked := r'.blocked }
  others : ∀ k, k ≠ key → r.blocked.get? k = r'.blocked.get? k
  held : t < expiry → r.blocked.get? key = some expiry
  ends : ∀ u, r.blocked.get? key = some u → u ≤ expiry
  earlier : ∀ u, r'.blocked.get? key = some u → u ≤ expiry

/-- A check of a key that is not blocked any more. -/
theorem checkRateLimit_over (cost now : ℚ) (hover : ∀ u, r.blocked.get? key = some u → u ≤ now) :
    ∃ blocked, r.checkRateLimit key cost now =
      (if cost > r.limiter.capacity then .error (.costUnsatisfiable cost r.strategy r.limiter.capacity)
        else .ok (r.limiter.check key cost now).1,
      { r with
        limiter := if cost > r.limiter.capacity then r.limiter else (r.limiter.check key cost now).2
        blocked }) ∧
      (∀ k, k ≠ key → blocked.get? k = r.blocked.get? k) ∧
      ∀ u, blocked.get? key = some u → r.blocked.get? key = some u := by
  unfold RateLimiter.checkRateLimit
  split
  · exact ⟨r.blocked, rfl, fun _ _ => rfl, fun _ hu => hu⟩
  · split
    · exact ⟨r.blocked, rfl, fun _ _ => rfl, fun _ hu => hu⟩
    · next blockedUntil hget =>
      rw [if_pos (hover blockedUntil hget)]
      refine ⟨r.blocked.erase key, rfl, fun k hne => ?_, fun u hu => ?_⟩
      · rw [OrderedMap.get?_erase, if_neg hne]
      · rw [OrderedMap.get?_erase_self] at hu
        cases hu

/-- A check of another key does the same to both. -/
theorem Beside.checkRateLimit (h : Beside key expiry t r r') {k : String} (hne : k ≠ key)
    (cost now : ℚ) : (r.checkRateLimit k cost now).1 = (r'.checkRateLimit k cost now).1 ∧
      Beside key expiry t (r.checkRateLimit k cost now).2 (r'.checkRateLimit k cost now).2 := by
  obtain ⟨windowMs, maxRequests, strategy, burstable, limiter, blocked⟩ := r'
  obtain ⟨hsame, hothers, hheld, hends, hearlier⟩ := h
  cases hsame
  have hkey : ∀ m : OrderedMap String ℚ, (m.erase k).get? key = m.get? key := fun m => by
    rw [OrderedMap.get?_erase, if_neg (Ne.symm hne)]
  unfold RateLimiter.checkRateLimit
  dsimp only
  rw [hothers k hne]
  split
  · exact ⟨rfl, rfl, hothers, hheld, hends, hearlier⟩
  · cases blocked.get? k with
    | none => exact ⟨rfl, rfl, hothers, hheld, hends, hearlier⟩
    | some blockedUntil =>
      dsimp only
      split
      · refine ⟨rfl, rfl, fun j hj => ?_, fun hlt => ?_, fun u hu => ?_, fun u hu => ?_⟩
        · dsimp only
          rw [OrderedMap.get?_erase, OrderedMap.get?_erase, hothers j hj]
        · exact (hkey r.blocked).trans (hheld hlt)
        · exact hends u ((hkey r.blocked).symm.trans hu)
        · exact hearlier u ((hkey blocked).symm.trans hu)
      · exact ⟨rfl, rfl, hothers, hheld, hends, hearlier⟩

/-- A check of the key after the block does the same to both. -/
theorem Beside.check_over (h : Beside key expiry t r r') (hnow : expiry ≤ now) (cost : ℚ) :
    (r.checkRateLimit key cost now).1 = (r'.checkRateLimit key cost now).1 ∧
      Beside key expiry now (r.checkRateLimit key cost now).2 (r'.checkRateLimit key cost now).2 := by
  obtain ⟨windowMs, maxRequests, strategy, burstable, limiter, blocked'⟩ := r'
  obtain ⟨hsame, hothers, -, hends, hearlier⟩ := h
  cases hsame
  obtain ⟨left, heq, hleft, hkey⟩ := checkRateLimit_over (r := r) cost now
    fun u hu => (hends u hu).trans hnow
  obtain ⟨left', heq', hleft', hkey'⟩ := checkRateLimit_over (r := { r with blocked := blocked' })
    cost now fun u hu => (hearlier u hu).trans hnow
  rw [heq, heq']
  refine ⟨rfl, rfl, fun k hne => ?_, fun hlt => absurd hlt (not_lt.mpr hnow), fun u hu => ?_,
    fun u hu => ?_⟩
  · exact (hleft k hne).trans ((hothers k hne).trans (hleft' k hne).symm)
  · exact hends u (hkey u hu)
  · exact hearlier u (hkey' u hu)

theorem Beside.later (h : Beside key expiry t r r') (hle : t ≤ now) :
    Beside key expiry now r r' :=
  ⟨h.same, h.others, fun hlt => h.held (hle.trans_lt hlt), h.ends, h.earlier⟩

/-- Another state of the strategy on both sides, and other blocked keys. -/
theorem Beside.with (h : Beside key expiry t r r') {l l' : Limiter} (hlimiter : l' = l)
    {blocked blocked' : OrderedMap String ℚ}
    (hothers : ∀ k, k ≠ key → blocked.get? k = blocked'.get? k)
    (hkey : blocked.get? key = r.blocked.get? key) (hkey' : blocked'.get? key = r'.blocked.get? key) :
    Beside key expiry t { r with limiter := l, blocked }
      { r' with limiter := l', blocked := blocked' } := by
  obtain ⟨hsame, -, hheld, hends, hearlier⟩ := h
  refine ⟨?_, hothers, fun hlt => hkey.trans (hheld hlt), fun u hu => hends u (hkey.symm.trans hu),
    fun u hu => hearlier u (hkey'.symm.trans hu)⟩
  rw [hsame, hlimiter]

theorem Beside.cleanup (h : Beside key expiry t r r') (hle : t ≤ now) :
    Beside key expiry now (r.cleanup now) (r'.cleanup now) := by
  obtain ⟨hsame, hothers, hheld, hends, hearlier⟩ := h
  refine ⟨?_, fun k hne => ?_, fun hlt => ?_, fun u hu => ?_, fun u hu => ?_⟩
  · rw [hsame]
    rfl
  · exact OrderedMap.get?_filter_congr (hothers k hne) _
  · exact OrderedMap.get?_filter.mpr ⟨hheld (hle.trans_lt hlt), by simpa using hlt⟩
  · exact hends u (OrderedMap.get?_filter.mp hu).1
  · exact hearlier u (OrderedMap.get?_filter.mp hu).1

/-! ## Every call -/

/-- A call that the block does not refuse. -/
theorem Beside.admitted (h : Beside key expiry t r r') (hle : t ≤ call.now)
    (hleaves : call.Leaves key) (hopen : ¬ call.Shut key expiry) :
    (r.admitted key expiry call).2 = (r'.admitted key expiry call).2 ∧
      Beside key expiry call.now (r.admitted key expiry call).1 (r'.admitted key expiry call).1 := by
  have hlater := h.later hle
  have hlimiter : r'.limiter = r.limiter := by rw [h.same]
  have hwindow : r'.windowMs = r.windowMs := by rw [h.same]
  obtain ⟨now, operation⟩ := call
  cases operation with
  | checkRateLimit k cost =>
    rw [RateLimiter.admitted, RateLimiter.admitted, if_neg hopen, if_neg hopen]
    by_cases hk : k = key
    · subst hk
      have hnow : expiry ≤ now := by
        by_contra hlt
        exact hopen ⟨rfl, not_le.mp hlt⟩
      obtain ⟨hanswer, hbeside⟩ := h.check_over hnow cost
      exact ⟨congrArg some hanswer, hbeside⟩
    · obtain ⟨hanswer, hbeside⟩ := hlater.checkRateLimit hk cost now
      exact ⟨congrArg some hanswer, hbeside⟩
  | blockKey k duration =>
    have hne : key ≠ k := Ne.symm hleaves
    refine ⟨rfl, hlater.with hlimiter (fun j hj => ?_) ?_ ?_⟩
    · rw [OrderedMap.get?_set, OrderedMap.get?_set, h.others j hj, hwindow]
    · rw [OrderedMap.get?_set, if_neg hne]
    · rw [OrderedMap.get?_set, if_neg hne]
  | reset k =>
    have hne : key ≠ k := Ne.symm hleaves
    have hreset : r'.limiter.reset k = r.limiter.reset k := by rw [hlimiter]
    refine ⟨rfl, hlater.with hreset (fun j hj => ?_) ?_ ?_⟩
    · rw [OrderedMap.get?_erase, OrderedMap.get?_erase, h.others j hj]
    · rw [OrderedMap.get?_erase, if_neg hne]
    · rw [OrderedMap.get?_erase, if_neg hne]
  | getStatus k | getRemainingTokens k =>
    have hread : (r'.limiter.remaining k now).2 = (r.limiter.remaining k now).2 := by rw [hlimiter]
    exact ⟨rfl, hlater.with hread h.others rfl rfl⟩
  | cleanup => exact ⟨rfl, h.cleanup hle⟩

/-- A call that the block refuses leaves everything as it was. -/
theorem Beside.refused (h : Beside key expiry t r r') (hle : t ≤ call.now)
    (hshut : call.Shut key expiry) :
    (r.step call).1 = r ∧ ∃ answer, (r.step call).2 = some answer ∧ Refusal answer := by
  obtain ⟨now, operation⟩ := call
  cases operation with
  | checkRateLimit k cost =>
    obtain ⟨rfl, hlt⟩ := hshut
    have hget := h.held (hle.trans_lt hlt)
    dsimp only [step, RateLimiter.checkRateLimit]
    rw [hget]
    split
    · exact ⟨rfl, _, rfl, .inr ⟨_, _, _, rfl⟩⟩
    · dsimp only
      rw [if_neg (not_le.mpr hlt)]
      exact ⟨rfl, _, rfl, .inl rfl⟩
  | blockKey | reset | getStatus | getRemainingTokens | cleanup => cases hshut

theorem beside_blockKey (r : RateLimiter) (duration : Option ℚ)
    (hkey : ∀ u, r.blocked.get? key = some u → u ≤ now + duration.getD r.windowMs) :
    Beside key (now + duration.getD r.windowMs) now (r.blockKey key duration now) r := by
  refine ⟨rfl, fun k hne => ?_, fun _ => OrderedMap.get?_set_self _ _ _, fun u hu => ?_, hkey⟩
  · exact (OrderedMap.get?_set _ _ _ _).trans (if_neg hne)
  · cases (OrderedMap.get?_set_self r.blocked key _).symm.trans hu
    exact le_refl _

/-! ## Runs -/

/-- Until a block of a key ends, every check of the key is refused. Everything else that is answered
from the block on, for this key and for every other, is answered as without the block and without
the checks it refused: if the block does not shorten another, and the key is not blocked or reset
again. -/
theorem block_only_refuses (r : RateLimiter) (key : String) (duration : Option ℚ) (now : ℚ)
    (hkey : ∀ u, r.blocked.get? key = some u → u ≤ now + duration.getD r.windowMs)
    {calls : List Call} (hstart : ∀ call ∈ calls, now ≤ call.now)
    (hsorted : calls.Pairwise fun call call' => call.now ≤ call'.now)
    (hleaves : ∀ call ∈ calls, call.Leaves key) :
    (∀ answer ∈ answers (refused key (now + duration.getD r.windowMs)) (r.blockKey key duration now)
      calls, Refusal answer) ∧
    answers (admitted key (now + duration.getD r.windowMs)) (r.blockKey key duration now) calls =
      answers (admitted key (now + duration.getD r.windowMs)) r
        (calls.filter fun call => ¬ call.Shut key (now + duration.getD r.windowMs)) := by
  have hbeside := beside_blockKey r duration hkey
  generalize r.blockKey key duration now = blocked at hbeside ⊢
  generalize now + duration.getD r.windowMs = expiry at hbeside ⊢
  have hsilent : ∀ {t : ℚ} {s s' : RateLimiter} {call : Call}, Beside key expiry t s s' →
      t ≤ call.now → call.Shut key expiry → (s.admitted key expiry call).2 = none ∧
        Beside key expiry call.now (s.admitted key expiry call).1 s' := by
    intro t s s' call h hle hshut
    obtain ⟨hsame, -⟩ := h.refused hle hshut
    refine ⟨if_pos hshut, ?_⟩
    rw [RateLimiter.admitted, hsame]
    exact h.later hle
  have hstep : ∀ {t : ℚ} {s : RateLimiter} {log : List (Except RateLimitError Verdict)} {call : Call},
      ((∃ s', Beside key expiry t s s') ∧ ∀ answer ∈ log, Refusal answer) → t ≤ call.now →
      call.Leaves key → (∃ s', Beside key expiry call.now (s.refused key expiry call).1 s') ∧
        ∀ answer ∈ log ++ (s.refused key expiry call).2.toList, Refusal answer := by
    rintro t s log call ⟨⟨s', h⟩, hlog⟩ hle hok
    by_cases hshut : call.Shut key expiry
    · obtain ⟨hsame, answer, hanswer, hrefusal⟩ := h.refused hle hshut
      refine ⟨⟨s', (hsilent h hle hshut).2⟩, fun a ha => ?_⟩
      rw [RateLimiter.refused, if_pos hshut, hanswer] at ha
      rcases List.mem_append.mp ha with ha | ha
      · exact hlog a ha
      · rwa [List.mem_singleton.mp ha]
    · refine ⟨⟨_, (h.admitted hle hok hshut).2⟩, fun a ha => ?_⟩
      rw [RateLimiter.refused, if_neg hshut] at ha
      exact hlog a ((List.append_nil log).subst ha)
  obtain ⟨-, -, -, hall⟩ := @answers_invariant _ _ _ _ _ (refused key expiry) Call.now
    (Call.Leaves key)
    (fun t s log => (∃ s', Beside key expiry t s s') ∧ ∀ answer ∈ log, Refusal answer) hstep now
    blocked [] ⟨⟨r, hbeside⟩, fun _ h => (List.not_mem_nil h).elim⟩ calls hstart hsorted hleaves
  refine ⟨hall, ?_⟩
  exact @answers_filter _ _ _ _ _ (admitted key expiry) Call.now (Call.Shut key expiry)
    (Call.Leaves key) _ (Beside key expiry) (fun h hle hok hopen => h.admitted hle hok hopen) hsilent
    now blocked r hbeside calls hstart hsorted hleaves

def hundredMs : Options where
  windowMs := some 100
  maxRequests := some 2
  strategy := some "fixed-window"

/-- A check that the block refuses, one of another key, and one after the block. -/
def aroundBlock : List Call :=
  [⟨5, .checkRateLimit "orders" 1⟩, ⟨5, .checkRateLimit "audit" 1⟩, ⟨12, .checkRateLimit "orders" 1⟩]

theorem block_only_refuses_aroundBlock : ∃ r, new hundredMs = .ok r ∧
    (aroundBlock.map fun call => decide (call.Shut "orders" 11)) = [true, false, false] ∧
    (∀ answer ∈ answers (refused "orders" (1 + 10)) (r.blockKey "orders" (some 10) 1) aroundBlock,
      Refusal answer) ∧
    answers (admitted "orders" (1 + 10)) (r.blockKey "orders" (some 10) 1) aroundBlock =
      answers (admitted "orders" (1 + 10)) r
        (aroundBlock.filter fun call => ¬ call.Shut "orders" (1 + 10)) := by
  refine ⟨_, rfl, by decide +kernel, ?_⟩
  exact block_only_refuses _ "orders" (some 10) 1 (fun u hu => by cases hu) (by decide +kernel)
    (by decide +kernel) (by decide +kernel)

end RateLimiter
end RabbitMQ

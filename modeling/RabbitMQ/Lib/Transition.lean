/-! Runs of a partial step function. A step that is not enabled answers `none`; a run may be
restricted to the steps that meet a condition on the state before the step. -/

namespace Transition

universe u v w

variable {σ : Type u} {ε : Type v} {ο : Type w}

/-- The states reached from `s₀` by enabled steps that all meet `ok`. -/
inductive Reach (step : σ → ε → Option σ) (ok : σ → ε → Prop) (s₀ : σ) : σ → Prop
  | refl : Reach step ok s₀ s₀
  | tail {s s' : σ} {e : ε} :
      Reach step ok s₀ s → ok s e → step s e = some s' → Reach step ok s₀ s'

/-- No restriction on the steps of a run. -/
def anyStep (_ : σ) (_ : ε) : Prop := True

instance (s : σ) (e : ε) : Decidable (anyStep s e) := inferInstanceAs (Decidable True)

/-- Feeds a list of events, stopping at the first one that is not enabled or breaks `ok`. -/
def run (step : σ → ε → Option σ) (ok : σ → ε → Prop) [∀ s e, Decidable (ok s e)] (s : σ) :
    List ε → Option σ
  | [] => some s
  | e :: es => if ok s e then (step s e).bind fun s' => run step ok s' es else none

namespace Reach

variable {step : σ → ε → Option σ} {ok ok' : σ → ε → Prop} {s₀ s s' : σ}

/-- What holds at the start and survives every permitted step holds throughout. -/
theorem invariant {I : σ → Prop} (h₀ : I s₀)
    (hstep : ∀ {s s' e}, I s → ok s e → step s e = some s' → I s')
    (h : Reach step ok s₀ s) : I s := by
  induction h with
  | refl => exact h₀
  | tail _ hok hs ih => exact hstep ih hok hs

/-- Strengthening: the invariant of the second induction may use the first. -/
theorem invariant_of {I J : σ → Prop} (hI : ∀ {s}, Reach step ok s₀ s → I s) (h₀ : J s₀)
    (hstep : ∀ {s s' e}, I s → I s' → J s → ok s e → step s e = some s' → J s')
    (h : Reach step ok s₀ s) : J s := by
  induction h with
  | refl => exact h₀
  | tail hr hok hs ih => exact hstep (hI hr) (hI (.tail hr hok hs)) ih hok hs

theorem mono (hok : ∀ s e, ok s e → ok' s e) (h : Reach step ok s₀ s) :
    Reach step ok' s₀ s := by
  induction h with
  | refl => exact .refl
  | tail _ h hs ih => exact .tail ih (hok _ _ h) hs

theorem toAny (h : Reach step ok s₀ s) : Reach step anyStep s₀ s :=
  h.mono fun _ _ _ => trivial

theorem trans (h : Reach step ok s₀ s) (h' : Reach step ok s s') : Reach step ok s₀ s' := by
  induction h' with
  | refl => exact h
  | tail _ hok hs ih => exact .tail ih hok hs

end Reach

/-- A run under a decidable condition that implies the other for these events. -/
theorem reach_of_run_of_imp {step : σ → ε → Option σ} {ok ok' : σ → ε → Prop}
    [∀ s e, Decidable (ok' s e)] {s s' : σ} {es : List ε}
    (hok : ∀ e ∈ es, ∀ s, ok' s e → ok s e) (h : run step ok' s es = some s') :
    Reach step ok s s' := by
  induction es generalizing s with
  | nil => cases h; exact .refl
  | cons e es ih =>
    simp only [run] at h
    split at h
    · rename_i hfirst
      obtain ⟨s₁, hs, h⟩ := Option.bind_eq_some_iff.mp h
      have hstep : Reach step ok s s₁ := .tail .refl (hok e List.mem_cons_self s hfirst) hs
      exact hstep.trans (ih (fun e he => hok e (List.mem_cons_of_mem _ he)) h)
    · cases h

theorem reach_of_run {step : σ → ε → Option σ} {ok : σ → ε → Prop} [∀ s e, Decidable (ok s e)]
    {s s' : σ} {es : List ε} (h : run step ok s es = some s') : Reach step ok s s' :=
  reach_of_run_of_imp (fun _ _ _ hok => hok) h

/-- A run of events that meet the condition in every state. -/
theorem reach_of_run_of_forall {step : σ → ε → Option σ} {ok : σ → ε → Prop} {s s' : σ}
    {es : List ε} (hok : ∀ e ∈ es, ∀ s, ok s e) (h : run step anyStep s es = some s') :
    Reach step ok s s' :=
  reach_of_run_of_imp (fun e he s _ => hok e he s) h

/-- Runs a step function that also produces outputs, keeping everything produced so far. -/
def logged (step : σ → ε → Option (σ × List ο)) (w : σ × List ο) (e : ε) :
    Option (σ × List ο) :=
  (step w.1 e).map fun r => (r.1, w.2 ++ r.2)

theorem logged_eq_some {step : σ → ε → Option (σ × List ο)} {w w' : σ × List ο} {e : ε}
    (h : logged step w e = some w') :
    ∃ s' out, step w.1 e = some (s', out) ∧ w' = (s', w.2 ++ out) := by
  obtain ⟨⟨s', out⟩, hs, rfl⟩ := Option.map_eq_some_iff.mp h
  exact ⟨s', out, hs, rfl⟩

/-- A rank that the outputs lower by one each, until it is zero. -/
theorem logged_rank {step : σ → ε → Option (σ × List ο)} {ok : σ × List ο → ε → Prop}
    (rank : σ → Nat) {I : σ → Prop} {good : ο → Prop}
    (hI : ∀ {s e s' out}, I s → step s e = some (s', out) → I s')
    (hrank : ∀ {s e s' out}, I s → step s e = some (s', out) → (∀ o ∈ out, good o) →
      rank s' + out.length ≤ rank s ∨ rank s' = 0)
    {s : σ} {w : σ × List ο} (h₀ : I s) (hw : Reach (logged step) ok (s, []) w)
    (hgood : ∀ o ∈ w.2, good o) :
    I w.1 ∧ (rank w.1 + w.2.length ≤ rank s ∨ rank w.1 = 0) := by
  induction hw with
  | refl => exact ⟨h₀, .inl (Nat.le_refl _)⟩
  | @tail w w' e _ _ hs ih =>
    obtain ⟨s', out, hstep, rfl⟩ := logged_eq_some hs
    obtain ⟨hinv, hlow⟩ := ih fun o ho => hgood o (List.mem_append_left _ ho)
    refine ⟨hI hinv hstep, ?_⟩
    have hnext := hrank hinv hstep fun o ho => hgood o (List.mem_append_right _ ho)
    dsimp only
    rw [List.length_append]
    omega

/-! ## Simulation

Runs of one machine seen as runs of another. A step of the first is answered by a step of the
second, or by none. -/

section

universe x

variable {σ : Type u} {ε : Type v} {τ : Type w} {δ : Type x}
  {step : σ → ε → Option σ} {ok : σ → ε → Prop} {step' : τ → δ → Option τ} {ok' : τ → δ → Prop}

/-- A simulation with stuttering: every state reached is related to one that the other machine
reaches. -/
theorem Reach.simulate {R : σ → τ → Prop} {s₀ : σ} {t₀ : τ} (h₀ : R s₀ t₀)
    (hstep : ∀ {s t s' e}, R s t → ok s e → step s e = some s' →
      R s' t ∨ ∃ e' t', ok' t e' ∧ step' t e' = some t' ∧ R s' t')
    {s : σ} (h : Reach step ok s₀ s) : ∃ t, Reach step' ok' t₀ t ∧ R s t := by
  induction h with
  | refl => exact ⟨t₀, .refl, h₀⟩
  | tail _ hok hs ih =>
    obtain ⟨t, hr, hrel⟩ := ih
    rcases hstep hrel hok hs with hstays | ⟨e', t', hok', hs', hmoves⟩
    · exact ⟨t, hr, hstays⟩
    · exact ⟨t', .tail hr hok' hs', hmoves⟩

/-- A component of a machine that each step leaves as it is, or takes through a step of its own. -/
theorem Reach.project {f : σ → τ} {s₀ : σ}
    (hstep : ∀ {s s' e}, ok s e → step s e = some s' →
      f s' = f s ∨ ∃ e', ok' (f s) e' ∧ step' (f s) e' = some (f s'))
    {s : σ} (h : Reach step ok s₀ s) : Reach step' ok' (f s₀) (f s) := by
  induction h with
  | refl => exact .refl
  | tail _ hok hs ih =>
    rcases hstep hok hs with hstays | ⟨e', hok', hs'⟩
    · rw [hstays]
      exact ih
    · exact .tail ih hok' hs'

end

end Transition

import Mathlib.Order.Defs.PartialOrder

/-! Runs of a machine that answers some of its events, at instants that do not decrease. Two runs
whose states agree from the present on give the same answers, also when one of them makes extra
steps that leave its state as it reads from then on. A machine that does as another one where a
condition holds does so in every run whose events all meet it. -/

universe u v w x u' v' w'

namespace Observation

variable {σ : Type u} {ε : Type v} {α : Type w} {ι : Type x} {σ' : Type u'} {ε' : Type v'}
  {α' : Type w'}

/-- What a machine answers to a list of events. -/
def answers (step : σ → ε → σ × Option α) : σ → List ε → List α
  | _, [] => []
  | s, e :: es => (step s e).2.toList ++ answers step (step s e).1 es

/-- The state after a list of events. -/
def after (step : σ → ε → σ × Option α) (s : σ) (es : List ε) : σ :=
  es.foldl (fun s e => (step s e).1) s

theorem answers_append (step : σ → ε → σ × Option α) (s : σ) (es fs : List ε) :
    answers step s (es ++ fs) = answers step s es ++ answers step (after step s es) fs := by
  induction es generalizing s with
  | nil => rfl
  | cons e es ih => simp only [List.cons_append, answers, ih, after, List.foldl_cons,
      List.append_assoc]

/-- Every event of a run meets a condition on the state it finds. -/
def Each (step : σ → ε → σ × Option α) (ok : σ → ε → Prop) : σ → List ε → Prop
  | _, [] => True
  | s, e :: es => ok s e ∧ Each step ok (step s e).1 es

instance Each.decidable {step : σ → ε → σ × Option α} {ok : σ → ε → Prop}
    [h : ∀ s e, Decidable (ok s e)] (s : σ) (es : List ε) : Decidable (Each step ok s es) :=
  match es with
  | [] => .isTrue trivial
  | e :: es =>
    have : Decidable (Each step ok (step s e).1 es) := Each.decidable _ _
    inferInstanceAs (Decidable (ok s e ∧ Each step ok (step s e).1 es))

/-- What every event that meets a condition preserves holds at the end of a run. -/
theorem Each.invariant {step : σ → ε → σ × Option α} {ok : σ → ε → Prop} {I : σ → Prop}
    (hstep : ∀ {s e}, I s → ok s e → I (step s e).1) {s : σ} (h : I s) {es : List ε}
    (hall : Each step ok s es) : I (after step s es) := by
  induction es generalizing s with
  | nil => exact h
  | cons e es ih => exact ih (hstep h hall.1) hall.2

/-- Where an invariant makes the events of a kind meet a condition, they do so in every run. -/
theorem Each.of_invariant {step : σ → ε → σ × Option α} {ok : σ → ε → Prop} {I : σ → Prop}
    {P : ε → Prop} (hok : ∀ {s e}, I s → P e → ok s e)
    (hstep : ∀ {s e}, I s → P e → I (step s e).1) {s : σ} (h : I s) {es : List ε}
    (hes : ∀ e ∈ es, P e) : Each step ok s es := by
  induction es generalizing s with
  | nil => trivial
  | cons e es ih =>
    have he := hes e List.mem_cons_self
    exact ⟨hok h he, ih (hstep h he) fun e' he' => hes e' (List.mem_cons_of_mem e he')⟩

/-- A run of the image of a machine is the image of its run. -/
theorem Each.image {step : σ → ε → σ × Option α} {step' : σ' → ε' → σ' × Option α'}
    {ok : σ' → ε' → Prop} {f : σ → σ'} {g : α → α'} {k : ε → ε'}
    (hstep : ∀ s e, ok (f s) (k e) →
      step' (f s) (k e) = (f (step s e).1, (step s e).2.map g)) {s : σ} {es : List ε}
    (hall : Each step' ok (f s) (es.map k)) :
    answers step' (f s) (es.map k) = (answers step s es).map g ∧
      after step' (f s) (es.map k) = f (after step s es) := by
  induction es generalizing s with
  | nil => exact ⟨rfl, rfl⟩
  | cons e es ih =>
    obtain ⟨hok, hall⟩ := hall
    rw [hstep s e hok] at hall
    obtain ⟨hanswers, hafter⟩ := ih hall
    rw [List.map_cons, answers, hstep s e hok, hanswers, answers, List.map_append]
    refine ⟨?_, ?_⟩
    · cases (step s e).2 <;> rfl
    · rw [after, List.foldl_cons, hstep s e hok]
      exact hafter

variable [Preorder ι]

/-- The first event of a run is the earliest. -/
theorem le_of_sorted {time : ε → ι} {e : ε} {es : List ε}
    (hsorted : (e :: es).Pairwise fun e f => time e ≤ time f) : ∀ f ∈ e :: es, time e ≤ time f := by
  intro f hf
  rcases List.mem_cons.mp hf with rfl | hf
  · exact le_refl _
  · exact (List.pairwise_cons.mp hsorted).1 f hf

/-- What holds of an instant, a state and the answers so far, and survives every event, holds at the
end of a run. -/
theorem answers_invariant {step : σ → ε → σ × Option α} {time : ε → ι} {ok : ε → Prop}
    {I : ι → σ → List α → Prop}
    (hstep : ∀ {t s log e}, I t s log → t ≤ time e → ok e →
      I (time e) (step s e).1 (log ++ (step s e).2.toList))
    {t : ι} {s : σ} {log : List α} (h : I t s log) {es : List ε} (hstart : ∀ e ∈ es, t ≤ time e)
    (hsorted : es.Pairwise fun e f => time e ≤ time f) (hok : ∀ e ∈ es, ok e) :
    ∃ t', (∀ last, t ≤ last → (∀ e ∈ es, time e ≤ last) → t' ≤ last) ∧
      I t' (after step s es) (log ++ answers step s es) := by
  induction es generalizing t s log with
  | nil => exact ⟨t, fun _ hle _ => hle, (List.append_nil log).symm ▸ h⟩
  | cons e es ih =>
    obtain ⟨hfirst, hsorted⟩ := List.pairwise_cons.mp hsorted
    have hnext := hstep h (hstart e List.mem_cons_self) (hok e List.mem_cons_self)
    obtain ⟨t', hlast, h'⟩ := ih hnext hfirst hsorted fun f hf => hok f (List.mem_cons_of_mem _ hf)
    refine ⟨t', fun last _ hle => ?_, ?_⟩
    · exact hlast last (hle e List.mem_cons_self) fun f hf => hle f (List.mem_cons_of_mem _ hf)
    · rw [answers, ← List.append_assoc]
      exact h'

/-- Silent events may be left out of a run when the states that agree at an instant go on to agree,
and a silent event keeps its state in agreement with the other one. -/
theorem answers_filter {step : σ → ε → σ × Option α} {time : ε → ι} {silent ok : ε → Prop}
    [DecidablePred silent] {Agree : ι → σ → σ → Prop}
    (hboth : ∀ {t s s' e}, Agree t s s' → t ≤ time e → ok e → ¬ silent e →
      (step s e).2 = (step s' e).2 ∧ Agree (time e) (step s e).1 (step s' e).1)
    (hsilent : ∀ {t s s' e}, Agree t s s' → t ≤ time e → silent e →
      (step s e).2 = none ∧ Agree (time e) (step s e).1 s')
    {t : ι} {s s' : σ} (h : Agree t s s') {es : List ε} (hstart : ∀ e ∈ es, t ≤ time e)
    (hsorted : es.Pairwise fun e f => time e ≤ time f) (hok : ∀ e ∈ es, ok e) :
    answers step s es = answers step s' (es.filter fun e => ¬ silent e) := by
  induction es generalizing t s s' with
  | nil => rfl
  | cons e es ih =>
    obtain ⟨hfirst, hsorted⟩ := List.pairwise_cons.mp hsorted
    have hle := hstart e List.mem_cons_self
    have hok' : ∀ f ∈ es, ok f := fun f hf => hok f (List.mem_cons_of_mem _ hf)
    by_cases he : silent e
    · obtain ⟨hnone, hnext⟩ := hsilent h hle he
      rw [List.filter_cons_of_neg (by simpa using he), answers, hnone]
      exact ih hnext hfirst hsorted hok'
    · obtain ⟨heq, hnext⟩ := hboth h hle (hok e List.mem_cons_self) he
      rw [List.filter_cons_of_pos (by simpa using he), answers, answers, heq,
        ih hnext hfirst hsorted hok']

/-- Machines that agree at an instant, and go on to agree, give the same answers. -/
theorem answers_eq {step : σ → ε → σ × Option α} {step' : σ' → ε → σ' × Option α}
    {time : ε → ι} {ok : ε → Prop} {Agree : ι → σ → σ' → Prop}
    (hboth : ∀ {t s s' e}, Agree t s s' → t ≤ time e → ok e →
      (step s e).2 = (step' s' e).2 ∧ Agree (time e) (step s e).1 (step' s' e).1)
    {t : ι} {s : σ} {s' : σ'} (h : Agree t s s') {es : List ε} (hstart : ∀ e ∈ es, t ≤ time e)
    (hsorted : es.Pairwise fun e f => time e ≤ time f) (hok : ∀ e ∈ es, ok e) :
    answers step s es = answers step' s' es ∧ ∃ t', Agree t' (after step s es) (after step' s' es) := by
  induction es generalizing t s s' with
  | nil => exact ⟨rfl, t, h⟩
  | cons e es ih =>
    obtain ⟨hfirst, hsorted⟩ := List.pairwise_cons.mp hsorted
    obtain ⟨heq, hnext⟩ := hboth h (hstart e List.mem_cons_self) (hok e List.mem_cons_self)
    obtain ⟨hrest, hlast⟩ := ih hnext hfirst hsorted fun f hf => hok f (List.mem_cons_of_mem _ hf)
    rw [answers, answers, heq, hrest]
    exact ⟨rfl, hlast⟩

end Observation

import RabbitMQ.Messaging.Rpc.Respond
import Mathlib.Algebra.Order.Ring.Unbundled.Rat

/-! What a call of the callback of `respond` has done, by the stage it is in. -/

namespace RabbitMQ
namespace Respond

variable {c : Call} {publication : Publication} {leg : Leg} {error : Value}

/-- The value that a handler that threw leaves the callback with. -/
def Call.thrown? (c : Call) : Option Value :=
  match c.handler with
  | some (.error error) =>
    if c.request.replyTo ∧ c.request.replyOnError then c.failures.getLast? else some error
  | _ => none

inductive Call.Sound (c : Call) : Prop
  | stale (hstale : c.request.Stale c.invokedAt) (hstage : c.stage = .resolved)
      (hran : c.ran = false) (hhandler : c.handler = none) (hpublished : c.published = [])
  | handling (hlive : ¬ c.request.Stale c.invokedAt) (hstage : c.stage = .handling)
      (hhandler : c.handler = none) (hpublished : c.published = []) (hconfirmed : c.confirmed = [])
      (hfailures : c.failures = [])
  | committed {publication : Publication} {leg : Leg} (hlive : ¬ c.request.Stale c.invokedAt)
      (hstage : c.stage = .publishing publication leg) (hhandler : c.handler = some (.ok ()))
      (hpublication : publication ≠ .envelope) (hconfirmed : c.confirmed = [])
  | done (hlive : ¬ c.request.Stale c.invokedAt) (hstage : c.stage = .resolved)
      (hhandler : c.handler = some (.ok ())) (hconfirmed : c.confirmed.length ≤ 1)
  | answering {error : Value} {leg : Leg} (hlive : ¬ c.request.Stale c.invokedAt)
      (hstage : c.stage = .publishing .envelope leg) (hhandler : c.handler = some (.error error))
      (hreplies : c.request.replyTo ∧ c.request.replyOnError) (hconfirmed : c.confirmed = [])
      (hfailures : c.failures = [])
  | answered {error : Value} (hlive : ¬ c.request.Stale c.invokedAt) (hstage : c.stage = .resolved)
      (hhandler : c.handler = some (.error error))
      (hreplies : c.request.replyTo ∧ c.request.replyOnError) (hconfirmed : c.confirmed = [.envelope])
      (hfailures : c.failures = [])
  | failed {error thrown : Value} (hlive : ¬ c.request.Stale c.invokedAt)
      (hstage : c.stage = .rejected thrown) (hhandler : c.handler = some (.error error))
      (hthrown : c.thrown? = some thrown) (hprintable : Describable thrown)
      (hconfirmed : c.confirmed = [])
      (hquiet : c.request.replyOnError = false → c.published = [] ∧ thrown = error)

theorem Call.sound_begin (request : Request) (now : ℚ) : (Call.begin request now).Sound := by
  unfold Call.begin
  split
  · next hstale => exact .stale hstale rfl rfl rfl rfl
  · next hlive => exact .handling hlive rfl rfl rfl rfl rfl

theorem describeError_ok {error : Value} (h : Describable error) :
    ∃ shown, describeError error = .ok shown := by
  obtain ⟨text, htext⟩ := h.text
  unfold describedText at htext
  split at htext
  · cases htext
  · next shown hshown => exact ⟨shown, hshown⟩

theorem Call.Sound.handled (h : c.Sound) (hstage : c.stage = .handling) (result : Except Value Unit)
    (hprintable : ∀ error, result = .error error → Describable error) : (c.handled result).Sound := by
  cases h with
  | handling hlive _ hhandler hpublished hconfirmed hfailures =>
    cases result with
    | ok =>
      by_cases hreplies : c.request.replyTo
      · have hreply : (c.handled (.ok ())).stage = .publishing .reply .getChannel := if_pos hreplies
        exact .committed hlive hreply rfl nofun hconfirmed
      · have hover : (c.handled (.ok ())).stage = .resolved := if_neg hreplies
        refine .done hlive hover rfl ?_
        change c.confirmed.length ≤ 1
        rw [hconfirmed]
        exact Nat.zero_le 1
    | error error =>
      by_cases hreplies : c.request.replyTo ∧ c.request.replyOnError
      · obtain ⟨shown, hshown⟩ := describeError_ok (hprintable error rfl)
        have henvelope : (c.handled (.error error)).stage = .publishing .envelope .getChannel := by
          simp only [Call.handled, if_pos hreplies, hshown]
        exact .answering hlive henvelope rfl hreplies hconfirmed hfailures
      · have hthrows : (c.handled (.error error)).stage = .rejected error := if_neg hreplies
        exact .failed hlive hthrows rfl (if_neg hreplies) (hprintable error rfl) hconfirmed
          fun _ => ⟨hpublished, rfl⟩
  | stale _ hresolved | done _ hresolved | answered _ hresolved =>
    cases hstage.symm.trans hresolved
  | committed _ hpublishing | answering _ hpublishing => cases hstage.symm.trans hpublishing
  | failed _ hrejected => cases hstage.symm.trans hrejected

/-- What publishes is the answer to a handler that returned, or the envelope for one that threw. -/
theorem Call.Sound.publishes (h : c.Sound)
    (hstage : c.stage = .publishing publication leg) : (c.publishes publication leg).Sound := by
  cases h with
  | committed hlive hpublishing hhandler hpublication hconfirmed =>
    cases hstage.symm.trans hpublishing
    cases leg with
    | getChannel | encode => exact .committed hlive rfl hhandler hpublication hconfirmed
    | confirm =>
      refine .done hlive rfl hhandler ?_
      change (c.confirmed ++ [publication]).length ≤ 1
      rw [hconfirmed]
      exact Nat.le_refl 1
  | answering hlive hpublishing hhandler hreplies hconfirmed hfailures =>
    cases hstage.symm.trans hpublishing
    cases leg with
    | getChannel | encode => exact .answering hlive rfl hhandler hreplies hconfirmed hfailures
    | confirm =>
      refine .answered hlive rfl hhandler hreplies ?_ hfailures
      change c.confirmed ++ [.envelope] = [.envelope]
      rw [hconfirmed]
      rfl
  | stale _ hresolved | done _ hresolved | answered _ hresolved =>
    cases hstage.symm.trans hresolved
  | handling _ hhandling => cases hstage.symm.trans hhandling
  | failed _ hrejected => cases hstage.symm.trans hrejected

theorem Call.Sound.fails (h : c.Sound)
    (hstage : c.stage = .publishing publication leg) (hprintable : Describable error) :
    (c.fails publication error).Sound := by
  obtain ⟨text, htext⟩ := hprintable.text
  cases h with
  | committed hlive hpublishing hhandler hpublication hconfirmed =>
    cases hstage.symm.trans hpublishing
    cases publication with
    | reply =>
      have hfallback : (c.fails .reply error).stage = .publishing .fallback .getChannel := by
        simp only [Call.fails, htext]
      exact .committed hlive hfallback hhandler nofun hconfirmed
    | fallback =>
      have hover : (c.fails .fallback error).stage = .resolved := by
        simp only [Call.fails, htext]
      refine .done hlive hover hhandler ?_
      change c.confirmed.length ≤ 1
      rw [hconfirmed]
      exact Nat.zero_le 1
    | envelope => exact absurd rfl hpublication
  | answering hlive hpublishing hhandler hreplies hconfirmed hfailures =>
    cases hstage.symm.trans hpublishing
    refine .failed hlive rfl hhandler ?_ hprintable hconfirmed fun hnot => ?_
    · change (match c.handler with
        | some (.error e) => if c.request.replyTo ∧ c.request.replyOnError then
          (c.failures ++ [error]).getLast? else some e
        | _ => none) = some error
      rw [hhandler]
      exact (if_pos hreplies).trans List.getLast?_concat
    · cases hnot.symm.trans hreplies.2
  | stale _ hresolved | done _ hresolved | answered _ hresolved =>
    cases hstage.symm.trans hresolved
  | handling _ hhandling => cases hstage.symm.trans hhandling
  | failed _ hrejected => cases hstage.symm.trans hrejected

/-- A request past its deadline is stale. -/
theorem stale_of_deadline {request : Request} {now deadline : ℚ} (hmem : deadline ∈ request.deadline)
    (hpositive : 0 < deadline) (hpast : deadline < now) : request.Stale now :=
  ⟨deadline, hmem, hpositive.ne', hpast⟩

/-! ## Every await brings it closer to its end -/

def Leg.rank : Leg → Nat
  | .getChannel => 3
  | .encode => 2
  | .confirm => 1

/-- How many awaits are left at most. -/
def Stage.rank : Stage → Nat
  | .handling => 7
  | .publishing .reply leg => leg.rank + 3
  | .publishing .fallback leg | .publishing .envelope leg => leg.rank
  | .resolved | .rejected _ => 0

theorem Call.rank_handled (hstage : c.stage = .handling) (result : Except Value Unit) :
    (c.handled result).stage.rank < c.stage.rank := by
  have hrank : (c.handled result).stage.rank ≤ 6 := by
    cases result with
    | ok =>
      change (if _ then Stage.publishing .reply .getChannel else .resolved).rank ≤ 6
      split
      · exact Nat.le_refl 6
      · exact Nat.zero_le 6
    | error error =>
      simp only [Call.handled]
      split
      · split
        · exact Nat.le_of_ble_eq_true rfl
        · exact Nat.zero_le 6
      · exact Nat.zero_le 6
  rw [hstage]
  exact Nat.lt_succ_of_le hrank

theorem Call.rank_publishes (hstage : c.stage = .publishing publication leg) :
    (c.publishes publication leg).stage.rank < c.stage.rank := by
  rw [hstage]
  cases leg <;> cases publication <;> simp [Call.publishes, Stage.rank, Leg.rank]

theorem Leg.rank_pos (leg : Leg) : 0 < leg.rank := by
  cases leg <;> exact Nat.succ_pos _

theorem Call.rank_fails (hstage : c.stage = .publishing publication leg) (error : Value) :
    (c.fails publication error).stage.rank < c.stage.rank := by
  have hleg := leg.rank_pos
  rw [hstage]
  cases publication with
  | reply =>
    simp only [Call.fails]
    split
    · exact Nat.lt_add_of_pos_left hleg
    · exact Nat.add_pos_left hleg 3
  | fallback =>
    simp only [Call.fails]
    split <;> exact hleg
  | envelope => exact hleg

end Respond
end RabbitMQ

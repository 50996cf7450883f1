import RabbitMQ.Messaging.Rpc.Respond.Outcome

/-! A callback of `respond` whose awaits settle comes to its end, and so does its request. -/

namespace RabbitMQ
namespace Respond

open Transition
open ConsumePipeline (Delivery Subscription)

variable {α : Type} {s : State α} {c : Call} {tag : Nat} {d : Delivery α} {sub : Subscription}

/-- The event that settles the await at which a call stands. -/
def Stage.settles (tag : Nat) (result : Except Value Unit) : Stage → Option (Event α)
  | .handling => some (.handled tag result)
  | .publishing .. => some (.publishes tag result)
  | .resolved | .rejected _ => none

variable [DecidableEq α] [ToString α]

/-- Whatever the await settles with, the call is closer to its end. -/
theorem await_settles (env : ConsumePipeline.Env α) (hc : s.calls.get? tag = some c)
    {result : Except Value Unit} {event : Event α} (he : c.stage.settles tag result = some event) :
    ∃ c', step s (env, event) = some { s with calls := s.calls.set tag c' } ∧
      c'.stage.rank < c.stage.rank := by
  cases hstage : c.stage with
  | handling =>
    rw [hstage] at he
    cases he
    refine ⟨c.handled result, ?_, hstage ▸ c.rank_handled hstage result⟩
    simp only [step, hc, Option.bind_some, hstage]
  | publishing publication leg =>
    rw [hstage] at he
    cases he
    cases result with
    | ok =>
      refine ⟨c.publishes publication leg, ?_, hstage ▸ c.rank_publishes hstage⟩
      simp only [step, hc, Option.bind_some, hstage]
    | error error =>
      refine ⟨c.fails publication error, ?_, hstage ▸ c.rank_fails hstage error⟩
      simp only [step, hc, Option.bind_some, hstage]
  | resolved | rejected =>
    rw [hstage] at he
    cases he

omit [DecidableEq α] [ToString α] in
/-- A step in which nothing refuses and nothing is settled by hand. -/
theorem granted_calm {event : Event α} {result : Except Value Unit} {stage : Stage}
    (he : stage.settles tag result = some event)
    (hprintable : ∀ error, result = .error error → Describable error) :
    Granted s (.calm, event) := by
  refine ⟨fun _ _ _ => rfl, ?_⟩
  cases stage with
  | handling | publishing =>
    cases he
    cases result with
    | ok => trivial
    | error error => exact hprintable error rfl
  | resolved | rejected => cases he

/-- Whatever the awaits of a callback settle with, it settles. -/
theorem call_settles {result : Call → Except Value Unit}
    (hprintable : ∀ c error, result c = .error error → Describable error)
    (hc : s.calls.get? tag = some c) :
    ∃ s' c', Reach step Granted s s' ∧ s'.pipeline = s.pipeline ∧ s'.calls.get? tag = some c' ∧
      c'.stage.rank = 0 := by
  induction hn : c.stage.rank using Nat.strong_induction_on generalizing s c with
  | _ n ih =>
    cases he : c.stage.settles (α := α) tag (result c) with
    | none =>
      refine ⟨s, c, .refl, rfl, hc, ?_⟩
      cases hstage : c.stage with
      | handling | publishing =>
        rw [hstage] at he
        cases he
      | resolved | rejected => rfl
    | some event =>
      obtain ⟨c', hs, hrank⟩ := await_settles .calm hc he
      have hok : Granted s (.calm, event) := granted_calm he (hprintable c)
      obtain ⟨s', c'', hr, hpipeline, hc'', hsettled⟩ := ih _ (hn ▸ hrank)
        (s := { s with calls := s.calls.set tag c' }) (OrderedMap.get?_set_self ..) rfl
      exact ⟨s', c'', (Reach.refl.tail hok hs).trans hr, hpipeline, hc'', hsettled⟩

/-- The callback of a request that is being handled can always come to its end. -/
theorem responder_ends (hr : Reach step Granted start s) (hc : s.calls.get? tag = some c)
    (hl : s.pipeline.lookup tag = some (d, sub)) (hstage : d.stage = .handling)
    {result : Call → Except Value Unit}
    (hprintable : ∀ c error, result c = .error error → Describable error) :
    ∃ s' d', Reach step Granted s s' ∧ s'.pipeline.lookup tag = some (d', sub) ∧
      d'.stage = .returned := by
  obtain ⟨hmem, -⟩ := ((followed hr).followed tag).call c hc
  obtain ⟨_, _, hl', hplain, -⟩ := ((followed hr).followed tag).request hmem
  cases hl.symm.trans hl'
  obtain ⟨s', c', hr', hpipeline, hc', hsettled⟩ := call_settles hprintable hc
  rw [← hpipeline] at hl
  obtain ⟨id, channel, message, settled, stage⟩ := d
  cases hstage
  cases hstage' : c'.stage with
  | handling =>
    rw [hstage'] at hsettled
    cases hsettled
  | publishing publication leg =>
    have hleg := leg.rank_pos
    rw [hstage'] at hsettled
    cases publication with
    | reply => cases hsettled
    | fallback | envelope => exact absurd hsettled hleg.ne'
  | resolved =>
    have hs : step s' (.calm, .returned tag) = some { s' with
        pipeline := s'.pipeline.complete .calm ⟨id, channel, message, settled, .handling⟩ sub } := by
      simp only [step, hc', Option.bind_some, hstage', State.piped, ConsumePipeline.step, hl, hplain]
      rfl
    have htag : message.tag = tag :=
      ((ConsumePipeline.accounted (pipeline_reach (hr.trans hr'))).attributed.delivery _ _
        (ConsumePipeline.lookup_eq_some.mp hl).1).1
    subst htag
    obtain ⟨d', hd', -, hreturned⟩ := lookup_setStage
      ((ConsumePipeline.settleAck_evolves s'.pipeline .calm sub message.tag .ack).trans
        (ConsumePipeline.finish_evolves _ message.tag)) hl .returned
    exact ⟨_, d', hr'.tail ⟨fun _ _ _ => rfl, trivial⟩ hs, hd', hreturned⟩
  | rejected error =>
    have hs : step s' (.calm, .returned tag) = some { s' with
        pipeline := (s'.pipeline.finish tag).setStage tag (.rejected true error) } := by
      simp only [step, hc', Option.bind_some, hstage', State.piped, ConsumePipeline.step, hl, hplain]
      rfl
    have hr₁ := hr'.tail ⟨fun _ _ _ => rfl, trivial⟩ hs
    obtain ⟨⟨_, _, message', _, _⟩, hd', -, hrejected⟩ := lookup_setStage
      (ConsumePipeline.finish_evolves s'.pipeline tag) hl (.rejected true error)
    cases hrejected
    obtain ⟨d'', hd'', -, hreturned⟩ := lookup_setStage
      (ConsumePipeline.catchError_evolves _ .calm sub message' error) hd' .returned
    have hok (s : State α) : Granted s (.calm, .pipeline (.caught tag)) :=
      ⟨fun _ _ _ => rfl, trivial⟩
    refine ⟨{ s' with pipeline := _ }, d'', hr₁.tail (hok _) ?_, hd'', hreturned⟩
    simp only [step, State.Passes, if_true, State.piped, ConsumePipeline.step, hd']
    rfl

end Respond
end RabbitMQ

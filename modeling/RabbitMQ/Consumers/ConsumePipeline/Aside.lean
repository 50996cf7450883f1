import RabbitMQ.Consumers.ConsumePipeline.Stages

/-! What a step leaves alone: a delivery to a plain subscription changes, and is settled, only by
the events that name it. -/

namespace RabbitMQ
namespace ConsumePipeline

variable {α : Type} {s s' : State α} {env : Env α} {sub : Subscription} {d : Delivery α}
  {tag t id : Nat}

/-- The delivery that an event names. -/
def Event.tag? : Event α → Option Nat
  | .decoded tag | .undecodable tag _ | .callbackResolved tag | .callbackRejected tag _
  | .caught tag | .ackMessage tag | .nackMessage tag _ => some tag
  | .subscribe .. | .deliver .. | .processor .. => none

/-- The delivery and its settlements are as they were. -/
structure Untouched (tag : Nat) (s s' : State α) : Prop where
  delivery : s'.deliveries.get? tag = s.deliveries.get? tag
  settlements : s'.settlementsOf tag = s.settlementsOf tag

theorem Untouched.trans {s'' : State α} (h : Untouched tag s s') (h' : Untouched tag s' s'') :
    Untouched tag s s'' :=
  ⟨h'.delivery.trans h.delivery, h'.settlements.trans h.settlements⟩

theorem Untouched.of_eq (hd : s'.deliveries = s.deliveries)
    (hs : s'.settlements = s.settlements) : Untouched tag s s' := by
  refine ⟨by rw [hd], ?_⟩
  rw [State.settlementsOf, State.settlementsOf, hs]

theorem Untouched.settle (hne : t ≠ tag) (env : Env α) (channel : Nat) (action : Action)
    (origin : Origin) : Untouched tag s (s.settle env channel t action origin) := by
  unfold State.settle
  split
  · exact .of_eq rfl rfl
  · split
    · exact .of_eq rfl rfl
    · split
      · exact .of_eq rfl rfl
      · refine ⟨?_, ?_⟩
        · exact (OrderedMap.get?_set ..).trans (if_neg hne.symm)
        · rw [State.settlementsOf, State.settlementsOf, List.filter_append,
            List.filter_cons_of_neg (by simpa using hne), List.filter_nil, List.append_nil]

theorem Untouched.settleAck (hne : t ≠ tag) (env : Env α) (sub : Subscription) (action : Action) :
    Untouched tag s (s.settleAck env sub t action) := by
  unfold State.settleAck
  split
  · exact .of_eq rfl rfl
  · exact .settle hne ..

theorem Untouched.setStage (hne : t ≠ tag) (stage : Stage) :
    Untouched tag s (s.setStage t stage) := by
  unfold State.setStage
  split
  · exact .of_eq rfl rfl
  · exact ⟨(OrderedMap.get?_set ..).trans (if_neg hne.symm), rfl⟩

theorem Untouched.finish_setStage (hne : t ≠ tag) (stage : Stage) :
    Untouched tag s ((s.finish t).setStage t stage) := by
  have hfinish : Untouched tag s (s.finish t) := .of_eq rfl rfl
  exact hfinish.trans (.setStage hne stage)

theorem Untouched.catchError {message : Message α} (hne : message.tag ≠ tag) (error : Value) :
    Untouched tag s (s.catchError env sub message error) := by
  unfold State.catchError
  split
  · exact .of_eq rfl rfl
  · split
    · exact .of_eq rfl rfl
    · exact .settleAck hne ..

theorem Untouched.complete (hne : d.message.tag ≠ tag) :
    Untouched tag s (s.complete env d sub) := by
  have hacked : Untouched tag s ((s.settleAck env sub d.message.tag .ack).finish d.message.tag) :=
    (Untouched.settleAck hne ..).trans (.of_eq rfl rfl)
  unfold State.complete
  dsimp only
  split <;> exact hacked.trans (.setStage hne _)

theorem Untouched.report {o : SequentialProcessor.Output α} (ho : o.Within (· ≠ tag)) :
    Untouched tag s (State.report env sub s o) := by
  cases o with
  | onSuccess | onFailure => exact (Untouched.settleAck ho ..).trans (.of_eq rfl rfl)
  | handled root result => cases result <;> exact .setStage ho _
  | _ => exact .of_eq rfl rfl

theorem Untouched.advance {r : SequentialProcessor.State α × List (SequentialProcessor.Output α)}
    (hout : ∀ o ∈ r.2, o.Within (· ≠ tag)) : Untouched tag s (s.advance env id sub r) := by
  have hreports : ∀ (out : List (SequentialProcessor.Output α)) (s : State α),
      (∀ o ∈ out, o.Within (· ≠ tag)) → Untouched tag s (out.foldl (State.report env sub) s) := by
    intro out
    induction out with
    | nil => exact fun _ _ => .of_eq rfl rfl
    | cons o out ih =>
      intro s hout
      have hfirst : Untouched tag s (State.report env sub s o) :=
        .report (hout o List.mem_cons_self)
      exact hfirst.trans (ih _ fun o' ho' => hout o' (List.mem_cons_of_mem _ ho'))
  have hput : Untouched tag s { s with processors := s.processors.set id r.1 } := .of_eq rfl rfl
  exact hput.trans (hreports _ _ hout)

/-! ## The settlement of one delivery -/

theorem setStage_get? (hd : s.deliveries.get? tag = some d) (stage : Stage) :
    (s.setStage tag stage).deliveries.get? tag = some { d with stage } := by
  rw [State.setStage, hd]
  exact OrderedMap.get?_set_self ..

theorem setStage_settlementsOf (stage : Stage) :
    (s.setStage tag stage).settlementsOf tag = s.settlementsOf tag := by
  unfold State.setStage
  split <;> rfl

theorem Counted.settleAck_fresh (h : Counted s) (hd : s.deliveries.get? tag = some d)
    (hopen : s.settlementsOf tag = []) (hnoAck : sub.noAck = false) {action : Action}
    (hrefuses : env.refuses tag action = false) :
    (s.settleAck env sub tag action).deliveries.get? tag = some { d with ackSettled := true } ∧
      (s.settleAck env sub tag action).settlementsOf tag =
        [⟨sub.channel, tag, action, .pipeline⟩] := by
  have hcount := h.count tag
  rw [hopen, State.settled, hd] at hcount
  have hsettled : ¬ d.ackSettled := by
    intro hset
    rw [Option.any_some, hset] at hcount
    cases hcount
  rw [State.settleAck, if_neg (by simp [hnoAck]), State.settle, hd]
  dsimp only
  rw [if_neg hsettled, if_neg (by simp [hrefuses])]
  refine ⟨OrderedMap.get?_set_self .., ?_⟩
  rw [State.settlementsOf, List.filter_append, ← State.settlementsOf, hopen, List.nil_append,
    List.filter_cons_of_pos (by simp), List.filter_nil]

theorem Counted.settleAck_again (h : Counted s) (hd : s.deliveries.get? tag = some d)
    (hsent : s.settlementsOf tag ≠ []) (action : Action) :
    s.settleAck env sub tag action = s := by
  have hcount := h.count tag
  rw [State.settled, hd, Option.any_some] at hcount
  have hsettled : d.ackSettled := by
    by_contra hnot
    rw [Bool.eq_false_iff.mpr hnot] at hcount
    exact hsent (List.length_eq_zero_iff.mp hcount)
  rw [State.settleAck, State.settle, hd]
  dsimp only
  rw [if_pos hsettled, ite_self]

variable [DecidableEq α]

omit [DecidableEq α] in
/-- A processor handles the deliveries of its own subscription, which is not a plain one. -/
theorem not_handed {d₀ : Delivery α} {sub₀ : Subscription} (hl : s.lookup tag = some (d₀, sub₀))
    (hplain : sub₀.sequential = none) (hsub : s.subscriptions.get? id = some sub)
    (hsequential : sub.sequential ≠ none) : ∀ t, s.Handed id t → t ≠ tag := by
  rintro t hhanded rfl
  rw [hhanded.sub_eq hsub d₀ sub₀ hl] at hplain
  exact hsequential hplain

theorem Untouched.processMessage {d₀ : Delivery α} {sub₀ : Subscription} (h : Accounted s)
    (hd : s.lookup t = some (d, sub)) (hl : s.lookup tag = some (d₀, sub₀))
    (hplain : sub₀.sequential = none) (hne : d.message.tag ≠ tag) :
    Untouched tag s (s.processMessage env d sub) := by
  have hset : Untouched tag s (s.setStage d.message.tag .handling) := .setStage hne _
  have e : Evolves s (s.setStage d.message.tag .handling) := setStage_evolves fun _ _ _ => rfl
  unfold State.processMessage
  dsimp only
  split
  · next staleTimeout p hseq hp =>
    obtain ⟨hsub, hkeeps⟩ := h.delivers (hooks env sub (.handle d.message)) hd hp
    obtain ⟨hget₀, hsub₀⟩ := lookup_eq_some.mp hl
    have hl' : (s.setStage d.message.tag .handling).lookup tag = some (d₀, sub₀) :=
      lookup_eq_some.mpr ⟨hset.delivery.trans hget₀, e.subscription _ _ hsub₀⟩
    have hother := not_handed hl' hplain hsub (by rw [hseq]; nofun)
    exact hset.trans (.advance fun o ho => .mono hother (hkeeps.2 o ho))
  · exact hset

variable [ToString α]

/-- A step that does not name the delivery of a plain subscription leaves it alone. -/
theorem Steps.untouched {event : Event α} {d₀ : Delivery α} {sub₀ : Subscription}
    (H : Steps env s event s') (h : Accounted s) (hl : s.lookup tag = some (d₀, sub₀))
    (hplain : sub₀.sequential = none) (hevent : event.tag? ≠ some tag) : Untouched tag s s' := by
  have hother : ∀ {t d sub}, s.lookup t = some (d, sub) → some t ≠ some tag →
      d.message.tag ≠ tag := by
    intro t d sub hd hne heq
    obtain ⟨htag, -⟩ := h.attributed.delivery t d (lookup_eq_some.mp hd).1
    exact hne (congrArg some (htag.symm.trans heq))
  cases H with
  | subscribe => exact .of_eq rfl rfl
  | @deliver id sub message hsub hfresh =>
    refine ⟨(OrderedMap.get?_set ..).trans (if_neg ?_), rfl⟩
    rintro rfl
    exact hfresh (OrderedMap.mem_of_get? (lookup_eq_some.mp hl).1)
  | decoded hd hstage => exact .processMessage h hd hl hplain (hother hd hevent)
  | undecodable | callbackRejected =>
    exact .finish_setStage (fun heq => hevent (congrArg some heq)) _
  | callbackResolved hd => exact .complete (hother hd hevent)
  | caught hd =>
    refine (Untouched.catchError (hother hd hevent) _).trans (.setStage ?_ _)
    exact fun heq => hevent (congrArg some heq)
  | @processor id sub p staleTimeout event r hsub hp hsequential hlater hs =>
    have hkeeps : SequentialProcessor.Keeps (s.Handed id) r :=
      (SequentialProcessor.step_cases hs).within (h.attributed.processor id p hp)
        fun message hm => absurd hm (hlater message)
    have hnot := not_handed hl hplain hsub (by rw [hsequential]; nofun)
    have hadvance : Untouched tag s (s.advance env id sub r) :=
      .advance fun o ho => .mono hnot (hkeeps.2 o ho)
    cases throwing p event with
    | none => exact hadvance
    | some t => exact hadvance.trans (.of_eq rfl rfl)
  | ackMessage =>
    unfold State.ackMessage
    split
    · exact .of_eq rfl rfl
    · exact .settle (fun heq => hevent (congrArg some heq)) ..
  | nackMessage =>
    unfold State.nackMessage
    split
    · exact .of_eq rfl rfl
    · exact .settle (fun heq => hevent (congrArg some heq)) ..

end ConsumePipeline
end RabbitMQ

import RabbitMQ.Consumers.ConsumePipeline.Aside
import RabbitMQ.Consumers.ConsumePipeline.Custody
import RabbitMQ.Consumers.ConsumePipeline.Decisions

/-! What the pipeline settles has a result: a handler that returned or threw, or a failure before it
was called.

For a processor this rests on its stacks of calls. A call whose delivery has no result yet is in the
callback of that delivery, with nothing below it. -/

namespace RabbitMQ

namespace SequentialProcessor

variable {α : Type}

/-- The call is in the callback of its own delivery. -/
def ownCallback (root : Nat) : List (Frame α) → Bool
  | [⟨message, _, .callback⟩] => message.tag = root
  | _ => false

variable [DecidableEq α] {c : Config} {h : Hooks α} {s : State α} {root j : Nat}

theorem callbackResolved_calls (hj : j ≠ root) (frame : Frame α) (rest : List (Frame α)) :
    (callbackResolved c h s root frame rest).1.calls.get? j = s.calls.get? j := by
  have hremoved := congrArg State.calls
    (removeProcessing_frame s frame.message.messageId .success)
  simp only [callbackResolved]
  split
  · rw [settle_calls _ _ hj, hremoved]
  · have htaken := congrArg State.calls (takeDependents_frame
      (s.removeProcessing frame.message.messageId .success).1 frame.message.messageId)
    rw [OrderedMap.get?_set, if_neg hj, htaken, hremoved]

theorem processDependent_calls (hj : j ≠ root) (frame : Frame α) (pendingId : α)
    (remaining : List α) (rest : List (Frame α)) :
    (processDependent c h s root frame pendingId remaining rest).1.calls.get? j =
      s.calls.get? j := by
  simp only [processDependent]
  split
  · exact (OrderedMap.get?_set ..).trans (if_neg hj)
  · next data hget =>
    have H := handle_cases h { s with pending := s.pending.erase pendingId } data.message
    have hcalls := congrArg State.calls H.frame
    generalize handle h { s with pending := s.pending.erase pendingId } data.message = r at hcalls ⊢
    obtain ⟨s₁, out, progress⟩ := r
    dsimp only at hcalls
    cases progress with
    | resolved | rejected => exact (settle_calls _ _ hj).trans (congrArg (OrderedMap.get? · j) hcalls)
    | running =>
      refine (OrderedMap.get?_set ..).trans ((if_neg hj).trans ?_)
      rw [hcalls]

/-- A step leaves the other calls as they are. -/
theorem Steps.other_calls [ToString α] {event : Event α} {r : State α × List (Output α)}
    (H : Steps c h s event r) (hlater : ∀ message, event ≠ .handle message)
    (hj : event.root? ≠ some j) : r.1.calls.get? j = s.calls.get? j := by
  have hne : ∀ {root}, some root ≠ some j → j ≠ root := fun h heq => h (congrArg some heq.symm)
  cases H with
  | handle => exact absurd rfl (hlater _)
  | callbackResolved => exact callbackResolved_calls (hne hj) _ _
  | callbackRejected | loopEnds => exact settle_calls _ _ (hne hj)
  | loopTurns => exact processDependent_calls (hne hj) _ _ _ _
  | cleanup =>
    exact congrArg (OrderedMap.get? · j) (congrArg State.calls
      (sweepPending_frame c h s.pending.entries (sweepProcessing c s).1) :)
  | dispose | tick => rfl

/-- The callback of the call's own delivery has its result: it is reported, or it threw. -/
theorem Steps.concludes [ToString α] {event : Event α} {r : State α × List (Output α)}
    (H : Steps c h s event r) (hroot : event.root? = some root) {stack : List (Frame α)}
    (hcall : s.calls.get? root = some stack) (hown : ownCallback root stack) :
    (∃ o ∈ r.2, o.settles root) ∨ event.Throws s root := by
  cases H with
  | @callbackResolved root' message startTime rest hcall' =>
    cases hroot
    cases hcall.symm.trans hcall'
    cases rest with
    | cons => cases hown
    | nil =>
      refine .inl ⟨.onSuccess message (.ran ((s.removeProcessing message.messageId .success).1.now -
        startTime)), ?_, hown⟩
      simp only [SequentialProcessor.callbackResolved]
      split
      · simp
      · simp
  | @callbackRejected root' message startTime rest error hcall' =>
    cases hroot
    cases hcall.symm.trans hcall'
    cases rest with
    | cons => cases hown
    | nil => exact .inr ⟨_, hcall, hown⟩
  | @loopEnds root' message startTime rest hcall' =>
    cases hroot
    cases hcall.symm.trans hcall'
    cases rest <;> cases hown
  | @loopTurns root' message startTime pendingId remaining rest hcall' =>
    cases hroot
    cases hcall.symm.trans hcall'
    cases rest <;> cases hown
  | _ => cases hroot

/-- A call of `handle` that is new is in the callback of its delivery, and one that rejects at once
has reported it. -/
theorem deliver_calls (message : Message α) :
    (∀ j stack, (deliver h s message).1.calls.get? j = some stack →
      s.calls.get? j = some stack ∨ j = message.tag ∧ ownCallback j stack) ∧
    ∀ root e, .handled root (.error e) ∈ (deliver h s message).2 →
      ∃ o ∈ (deliver h s message).2, o.settles root := by
  have H := handle_cases h { s with handled := message.tag :: s.handled } message
  simp only [deliver]
  generalize handle h { s with handled := message.tag :: s.handled } message = r at H
  cases H with
  | duplicate =>
    cases h.onSuccess message with
    | ok =>
      refine ⟨fun j stack hj => .inl hj, fun root e he => ?_⟩
      simp [Progress.returned] at he
    | error e₀ =>
      refine ⟨fun j stack hj => .inl hj, fun root e he => ?_⟩
      refine ⟨.onSuccess message .duplicate, List.mem_cons_self, ?_⟩
      obtain ⟨rfl, -⟩ : root = message.tag ∧ e = e₀ := by simpa [Progress.returned] using he
      exact decide_eq_true rfl
  | parks => exact ⟨fun j stack hj => .inl hj, fun root e he => by simp at he⟩
  | runs =>
    refine ⟨fun j stack hj => ?_, fun root e he => by simp at he⟩
    dsimp only at hj
    rw [OrderedMap.get?_set] at hj
    split at hj
    · next heq =>
      cases hj
      exact .inr ⟨heq, decide_eq_true heq.symm⟩
    · exact .inl hj

end SequentialProcessor

namespace ConsumePipeline

open Transition

variable {α : Type} {s s' : State α} {env : Env α} {sub : Subscription} {tag id : Nat}

/-! ## Settlements of the pipeline -/

/-- What the pipeline settled is finished. -/
def Answered (s : State α) : Prop :=
  ∀ f ∈ s.settlements, f.origin = .pipeline → f.tag ∈ s.finished

theorem Answered.sends (h : Answered s)
    (hsends : Sends (fun f => f.origin = .pipeline → f.tag ∈ s'.finished) s s')
    (hmono : ∀ t ∈ s.finished, t ∈ s'.finished) : Answered s' := by
  obtain ⟨sent, hsettlements, hsent⟩ := hsends
  intro f hf horigin
  rw [hsettlements] at hf
  rcases List.mem_append.mp hf with hf | hf
  · exact hmono _ (h f hf horigin)
  · exact hsent f hf horigin

theorem Answered.of_eq (h : Answered s) (hsettlements : s'.settlements = s.settlements)
    (hfinished : s'.finished = s.finished) : Answered s' :=
  h.sends (.nothing hsettlements) fun _ ht => hfinished ▸ ht

theorem Answered.setStage (h : Answered s) (stage : Stage) : Answered (s.setStage tag stage) :=
  h.sends setStage_sends fun _ ht => by rwa [setStage_finished]

theorem Answered.finish (h : Answered s) (tag : Nat) : Answered (s.finish tag) :=
  h.sends (.nothing rfl) fun _ ht => List.mem_cons_of_mem _ ht

/-- A settlement of the pipeline is reported in the same step. -/
theorem Answered.reported (h : Answered s) (action : Action) :
    Answered ((s.settleAck env sub tag action).finish tag) := by
  refine h.sends ((settleAck_sends ?_).trans (.nothing rfl)) fun t ht => ?_
  · exact fun _ => List.mem_cons_self
  · exact List.mem_cons_of_mem _ (by rwa [settleAck_finished])

/-- Or its delivery was finished before. -/
theorem Answered.settleAck (h : Answered s) (ht : tag ∈ s.finished) (action : Action) :
    Answered (s.settleAck env sub tag action) := by
  refine h.sends (settleAck_sends fun _ => ?_) fun t ht => ?_
  · rwa [settleAck_finished]
  · rwa [settleAck_finished]

theorem Answered.settle (h : Answered s) (channel : Nat) (action : Action) :
    Answered (s.settle env channel tag action .application) := by
  refine h.sends (settle_sends nofun) fun t ht => ?_
  rwa [settle_finished]

theorem Answered.advance (h : Answered s)
    (r : SequentialProcessor.State α × List (SequentialProcessor.Output α)) :
    Answered (s.advance env id sub r) := by
  have hreports : ∀ (out : List (SequentialProcessor.Output α)) (s : State α), Answered s →
      Answered (out.foldl (State.report env sub) s) := by
    intro out
    induction out with
    | nil => exact fun _ h => h
    | cons o out ih =>
      intro s h
      refine ih _ ?_
      cases o with
      | onSuccess | onFailure => exact h.reported _
      | undecided => exact h.finish _
      | handled root result => cases result <;> exact h.setStage _
      | _ => exact h
  exact hreports r.2 _ (h.of_eq rfl rfl)

/-! ## Where a callback was rejected -/

/-- A report rejects a callback only with the promise of its `handle`. -/
theorem reports_rejected {out : List (SequentialProcessor.Output α)} {decoded : Bool}
    {error : Value} (h : (out.foldl (State.report env sub) s).place? tag =
      some (id, .rejected decoded error)) :
    s.place? tag = some (id, .rejected decoded error) ∨ ∃ e, .handled tag (.error e) ∈ out := by
  induction out generalizing s with
  | nil => exact .inl h
  | cons o out ih =>
    rcases ih h with h | ⟨e, he⟩
    · by_cases ho : ∃ e, o = .handled tag (.error e)
      · obtain ⟨e, rfl⟩ := ho
        exact .inr ⟨e, List.mem_cons_self⟩
      · refine .inl ?_
        cases o with
        | onSuccess | onFailure =>
          rwa [← (Moves.settleAck env sub _ _).others tag (Option.some_ne_none tag).symm]
        | handled root result =>
          by_cases heq : root = tag
          · subst heq
            cases result with
            | ok =>
              simp only [State.report, State.setStage] at h
              split at h
              · exact h
              · rw [place?_set, if_pos rfl] at h
                cases h
            | error e => exact absurd ⟨e, rfl⟩ ho
          · have hne : some root ≠ some tag := fun h => heq (Option.some.inj h)
            cases result <;> rwa [← (Moves.setStage _).others tag hne]
        | _ => exact h
    · exact .inr ⟨e, List.mem_cons_of_mem _ he⟩

variable [DecidableEq α]

/-! ## Steps -/

/-- Every settlement of the pipeline and everything thrown is the result of a delivery, and a call
of a processor has one unless its callback runs. -/
structure Resulted (s : State α) : Prop where
  settled : Answered s
  thrown : ∀ {tag id decoded error}, s.place? tag = some (id, .rejected decoded error) →
    tag ∈ s.finished
  called : ∀ {id p root stack}, s.processors.get? id = some p → p.calls.get? root = some stack →
    SequentialProcessor.ownCallback root stack ∨ root ∈ s.finished

variable [ToString α]

/-- A step of a processor takes on a call that has its result, or gives it one. -/
theorem Resulted.finishes (h : Resulted s) {event : SequentialProcessor.Event α} {root : Nat}
    (H : Steps env s (.processor id event) s') (hroot : event.root? = some root) :
    root ∈ s'.finished := by
  have hmono : root ∈ s.finished → root ∈ s'.finished := H.finished_mono
  cases H with
  | @processor _ sub p staleTimeout _ r hsub hp hsequential hlater hs =>
    have hsteps := SequentialProcessor.step_cases hs
    rcases hsteps.answers hlater with ⟨root', hroot', hmem, -⟩ | ⟨hnone, -⟩
    · cases hroot.symm.trans hroot'
      obtain ⟨stack, hstack⟩ := OrderedMap.mem_iff.mp hmem
      rcases h.called hp hstack with hown | hfinished
      · rcases hsteps.concludes hroot hstack hown with ⟨o, ho, hsettles⟩ | hthrows
        · have hadvance : root ∈ (s.advance env id sub r).finished :=
            (mem_advance_finished r).mpr (.inr ⟨o, ho, SequentialProcessor.Output.ends_of_settles hsettles⟩)
          cases throwing p event with
          | none => exact hadvance
          | some t => exact List.mem_cons_of_mem _ hadvance
        · rw [throwing_of_throws hthrows]
          exact List.mem_cons_self
      · exact hmono hfinished
    · cases hroot.symm.trans hnone

omit [ToString α] in
/-- The callback of a delivery that a processor took goes on, or has its result. -/
theorem processMessage_thrown {d : Delivery α} {decoded : Bool} {error : Value}
    (htag : d.message.tag = tag) (hd : s.deliveries.get? tag = some d)
    (hplace : (s.processMessage env d sub).place? tag = some (id, .rejected decoded error)) :
    tag ∈ (s.processMessage env d sub).finished := by
  subst htag
  have hhandling : (s.setStage d.message.tag .handling).place? d.message.tag =
      some (d.subscription, .handling) := place?_of_get? (setStage_get? hd _)
  unfold State.processMessage at hplace ⊢
  dsimp only at hplace ⊢
  split at hplace
  · next p hsequential hp =>
    rcases reports_rejected hplace with hplace | ⟨e, he⟩
    · cases hplace.symm.trans hhandling
    · obtain ⟨o, ho, hsettles⟩ := (SequentialProcessor.deliver_calls d.message).2 _ e he
      exact (mem_advance_finished _).mpr
        (.inr ⟨o, ho, SequentialProcessor.Output.ends_of_settles hsettles⟩)
  · cases hplace.symm.trans hhandling

theorem Resulted.step {event : Event α} (h : Resulted s) (H : Steps env s event s')
    (ha : Accounted s) (hrunning : Running s) : Resulted s' where
  settled := by
    cases H with
    | subscribe | deliver => exact h.settled
    | decoded =>
      unfold State.processMessage
      dsimp only
      split
      · exact (h.settled.setStage _).advance _
      · exact h.settled.setStage _
    | undecodable | callbackRejected => exact (h.settled.finish _).setStage _
    | callbackResolved =>
      unfold State.complete
      dsimp only
      split <;> exact (h.settled.reported _).setStage _
    | @caught tag d sub decoded error hd hstage =>
      obtain ⟨hget, -⟩ := lookup_eq_some.mp hd
      obtain ⟨htag, -⟩ := ha.attributed.delivery tag d hget
      have hplace := place?_of_get? hget
      rw [hstage, ← htag] at hplace
      rw [catchError_eq]
      split
      · exact h.settled.setStage _
      · exact (h.settled.settleAck (h.thrown hplace) _).setStage _
    | @processor id sub p staleTimeout event r =>
      cases throwing p event with
      | none => exact h.settled.advance r
      | some t => exact (h.settled.advance r).finish t
    | ackMessage =>
      unfold State.ackMessage
      split
      · exact h.settled
      · exact h.settled.settle _ _
    | nackMessage =>
      unfold State.nackMessage
      split
      · exact h.settled
      · exact h.settled.settle _ _
  thrown := by
    intro tag i decoded error hplace
    have htags := fun t d hd => (ha.attributed.delivery t d hd).1
    have hkept : s.place? tag = some (i, .rejected decoded error) → tag ∈ s'.finished :=
      fun hplace => H.finished_mono (h.thrown hplace)
    by_cases hdeliver : ∃ id message, event = .deliver id message
    · obtain ⟨id, message, rfl⟩ := hdeliver
      cases H with
      | deliver =>
        rw [place?_set] at hplace
        split at hplace
        · cases hplace
        · exact hkept hplace
    · have hmoves := (H.moves hrunning htags fun id m heq => hdeliver ⟨id, m, heq⟩).1
      by_cases hevent : event.delivery? = some tag
      · cases H with
        | subscribe | deliver | ackMessage | nackMessage => cases hevent
        | decoded hd =>
          cases hevent
          have hget := (lookup_eq_some.mp hd).1
          exact processMessage_thrown (htags _ _ hget) hget hplace
        | undecodable | callbackRejected =>
          cases hevent
          rw [setStage_finished]
          exact List.mem_cons_self
        | callbackResolved hd =>
          cases hevent
          obtain rfl := htags _ _ (lookup_eq_some.mp hd).1
          unfold State.complete
          dsimp only
          split
          · rw [setStage_finished]
            exact List.mem_cons_self
          · rw [setStage_finished]
            exact List.mem_cons_self
        | caught hd hstage =>
          cases hevent
          have hrejected := place?_of_get? (lookup_eq_some.mp hd).1
          rw [hstage] at hrejected
          rw [setStage_finished, catchError_finished]
          exact h.thrown hrejected
        | processor hsub hp hsequential hlater hs =>
          exact h.finishes (.processor hsub hp hsequential hlater hs) hevent
      · rw [hmoves.others tag hevent] at hplace
        exact hkept hplace
  called := by
    intro id p root stack hp hstack
    have hbefore : ∀ {p₀}, s.processors.get? id = some p₀ → p₀.calls.get? root = some stack →
        SequentialProcessor.ownCallback root stack ∨ root ∈ s'.finished :=
      fun hp₀ hstack => (h.called hp₀ hstack).imp_right H.finished_mono
    have hother : ∀ {i q}, s'.processors = s.processors.set i q → id ≠ i →
        s.processors.get? id = some p := by
      intro i q hprocessors hne
      rwa [hprocessors, OrderedMap.get?_set, if_neg hne] at hp
    have hown : ∀ {q}, s'.processors = s.processors.set id q → q = p := by
      intro q hprocessors
      rw [hprocessors, OrderedMap.get?_set_self] at hp
      exact Option.some.inj hp
    cases H.processors with
    | kept hprocessors => exact hbefore (hprocessors ▸ hp) hstack
    | @starts i sub hfresh hprocessors =>
      by_cases hi : id = i
      · subst hi
        cases hown hprocessors
        cases hstack
      · exact hbefore (hother hprocessors hi) hstack
    | @takes tag d sub p₀ r hd hstage hp₀ hr hprocessors =>
      by_cases hi : id = d.subscription
      · subst hi
        cases hown hprocessors
        rw [hr] at hstack
        rcases (SequentialProcessor.deliver_calls d.message).1 root stack hstack with hold | ⟨-, hown⟩
        · exact hbefore hp₀ hold
        · exact .inl hown
      · exact hbefore (hother hprocessors hi) hstack
    | @moves i sub p₀ c pe r hp₀ hlater hs hprocessors =>
      by_cases hi : id = i
      · subst hi
        cases hown hprocessors
        by_cases hroot : pe.root? = some root
        · exact .inr (h.finishes H hroot)
        · exact hbefore hp₀ ((hs.other_calls hlater hroot).symm.trans hstack)
      · exact hbefore (hother hprocessors hi) hstack

/-- In every run what the pipeline settles has a result. -/
theorem resulted {ok : State α → Env α × Event α → Prop} (hr : Reach step ok start s) :
    Resulted s := by
  have hstart : Resulted (start : State α) :=
    ⟨nofun, nofun, nofun⟩
  refine hr.invariant_of (I := fun s => Accounted s ∧ Running s)
    (fun hr => ⟨accounted hr, running hr⟩) hstart ?_
  exact fun h _ hs _ hstep => hs.step (step_cases hstep) h.1 h.2

/-! ## Handlers without a result -/

/-- The callback waits for the content or for the handler. -/
def Stage.waits : Stage → Bool
  | .decoding | .handling => true
  | .rejected _ _ | .returned => false

/-- A delivery of a plain subscription is settled by the application at most, while its handler has
no result. -/
def Unsettled (s : State α) : Prop :=
  ∀ tag d sub, s.lookup tag = some (d, sub) → sub.sequential = none → d.stage.waits →
    ∀ f ∈ s.settlementsOf tag, f.origin = .application

omit [DecidableEq α] [ToString α] in
theorem settle_application {channel : Nat} {action : Action}
    (h : ∀ f ∈ s.settlementsOf tag, f.origin = .application) :
    ∀ f ∈ (s.settle env channel tag action .application).settlementsOf tag,
      f.origin = .application := by
  have hsends : Sends (fun f => f.origin = .application) s
      (s.settle env channel tag action .application) := settle_sends rfl
  obtain ⟨sent, hsettlements, hsent⟩ := hsends
  intro f hf
  obtain ⟨hf, htag⟩ := List.mem_filter.mp hf
  rw [hsettlements] at hf
  rcases List.mem_append.mp hf with hf | hf
  · exact h f (List.mem_filter.mpr ⟨hf, htag⟩)
  · exact hsent f hf

omit [DecidableEq α] [ToString α] in
theorem setStage_place {stage stage' : Stage}
    (h : (s.setStage tag stage).place? tag = some (id, stage')) : stage' = stage := by
  unfold State.setStage at h
  split at h
  · next hnone =>
    rw [State.place?, hnone] at h
    cases h
  · rw [place?_set, if_pos rfl] at h
    cases h
    rfl

theorem Unsettled.step {event : Event α} (h : Unsettled s) (H : Steps env s event s')
    (ha : Accounted s) : Unsettled s' := by
  intro tag d sub hl hplain hwaits
  have hget := (lookup_eq_some.mp hl).1
  have hplace := place?_of_get? hget
  by_cases hmem : tag ∈ s.deliveries
  · obtain ⟨d₀, hl₀⟩ := lookup_before ha.attributed H.evolves hl hmem
    have hget₀ := (lookup_eq_some.mp hl₀).1
    by_cases hevent : event.tag? = some tag
    · have htag := (ha.attributed.delivery tag d₀ hget₀).1
      have hset : ∀ {s : State α} {stage}, (s.setStage tag stage).place? tag =
          some (d.subscription, d.stage) → stage.waits := fun h => setStage_place h ▸ hwaits
      have hsettled : ∀ {channel action}, (s.settle env channel tag action .application).place? tag =
          some (d.subscription, d.stage) → d₀.stage.waits := by
        intro channel action hplace
        rw [(Moves.settle env _ _ _ _).others tag (Option.some_ne_none tag).symm,
          place?_of_get? hget₀] at hplace
        rw [(Prod.mk.inj (Option.some.inj hplace)).2]
        exact hwaits
      cases H with
      | subscribe | deliver | processor => cases hevent
      | decoded hd hstage =>
        cases hevent
        cases hd.symm.trans hl₀
        have hhandling : s.processMessage env d₀ sub = s.setStage d₀.message.tag .handling := by
          unfold State.processMessage
          rw [hplain]
        rw [hhandling, htag, setStage_settlementsOf]
        exact h _ _ _ hl₀ hplain (by rw [hstage]; rfl)
      | undecodable | callbackRejected | caught =>
        cases hevent
        cases hset hplace
      | @callbackResolved _ d₁ sub₁ hd =>
        cases hevent
        cases hd.symm.trans hl₀
        unfold State.complete at hplace
        dsimp only at hplace
        rw [htag] at hplace
        split at hplace <;> cases hset hplace
      | ackMessage | nackMessage =>
        cases hevent
        simp only [State.ackMessage, State.nackMessage, hget₀] at hplace ⊢
        exact settle_application (h _ _ _ hl₀ hplain (hsettled hplace))
    · have hsame := H.untouched ha hl₀ hplain hevent
      rw [hsame.settlements]
      refine h _ _ _ hl₀ hplain ?_
      cases hget.symm.trans (hsame.delivery.trans hget₀)
      exact hwaits
  · have hdeliver : ∃ id message, event = .deliver id message := by
      by_contra hnot
      exact hmem ((H.refuses fun id message heq => hnot ⟨id, message, heq⟩).known tag
        (OrderedMap.mem_of_get? hget))
    obtain ⟨id, message, rfl⟩ := hdeliver
    have hcount := ha.counted.count tag
    rw [State.settled, OrderedMap.not_mem_iff.mp hmem] at hcount
    intro f hf
    cases H with
    | deliver =>
      change f ∈ s.settlementsOf tag at hf
      rw [List.length_eq_zero_iff.mp hcount] at hf
      cases hf

theorem unsettled {ok : State α → Env α × Event α → Prop} (hr : Reach step ok start s) :
    Unsettled s := by
  have hstart : Unsettled (start : State α) := by
    intro tag d sub hl
    cases hl
  exact hr.invariant_of (fun hr => accounted hr) hstart
    fun ha _ h _ hs => h.step (step_cases hs) ha

/-! ## Deliveries that the pipeline leaves alone -/

/-- The pipeline has not settled the delivery, and never will. -/
def State.Shielded (s : State α) (tag : Nat) : Prop :=
  ∃ d sub, s.lookup tag = some (d, sub) ∧ (sub.noAck ∨ d.ackSettled) ∧
    ∀ f ∈ s.settlementsOf tag, f.origin = .application

/-- Nothing that was sent is forgotten. -/
theorem settlements_grow (hr : Reach step anyStep start s) {ok : State α → Env α × Event α → Prop}
    (h : Reach step ok s s') : Sends (fun _ => True) s s' := by
  induction h with
  | refl => exact .nothing rfl
  | tail h hok hs ih =>
    have hr := hr.trans h.toAny
    obtain ⟨sent, hsent, -⟩ := (step_cases hs).sends (accounted hr).attributed (carried hr)
    exact ih.trans ⟨sent, hsent, fun _ _ => trivial⟩

theorem State.Shielded.kept (hr : Reach step anyStep start s)
    {ok : State α → Env α × Event α → Prop} (h : Reach step ok s s') (hs : s.Shielded tag) :
    s'.Shielded tag := by
  obtain ⟨d, sub, hl, hspared, happlication⟩ := hs
  obtain ⟨hd, hsub⟩ := lookup_eq_some.mp hl
  have e := evolves_of_reach h
  obtain ⟨d', hd', ev⟩ := e.delivery tag d hd
  have hl' : s'.lookup tag = some (d', sub) :=
    lookup_eq_some.mpr ⟨hd', ev.subscription ▸ e.subscription _ _ hsub⟩
  have hcounted := (accounted hr).counted
  have hcounted' := (accounted (hr.trans h.toAny)).counted
  refine ⟨d', sub, hl', hspared.imp_right ev.settled, fun f hf => ?_⟩
  obtain ⟨hf, htag⟩ := List.mem_filter.mp hf
  rcases hspared with hnoAck | hset
  · obtain ⟨d₁, sub₁, hl₁, -, hpipeline⟩ := hcounted'.source f hf
    rw [of_decide_eq_true htag, hl'] at hl₁
    cases hl₁
    cases horigin : f.origin with
    | application => rfl
    | pipeline => cases hnoAck.symm.trans (hpipeline horigin)
  · -- the settlement that set the flag is the only one
    obtain ⟨sent, hsent, -⟩ := settlements_grow hr h
    have hone : (s.settlementsOf tag).length = 1 := by
      rw [hcounted.count, State.settled, hd, Option.any_some, hset]
      rfl
    have hone' : (s'.settlementsOf tag).length = 1 := by
      rw [hcounted'.count, State.settled, hd', Option.any_some, ev.settled hset]
      rfl
    have hsplit : s'.settlementsOf tag = s.settlementsOf tag ++ sent.filter fun f => f.tag = tag := by
      rw [State.settlementsOf, hsent, List.filter_append]
      rfl
    rw [hsplit, List.length_append, hone] at hone'
    have hnone : (sent.filter fun f => f.tag = tag) = [] :=
      List.length_eq_zero_iff.mp (by omega)
    refine happlication f ?_
    rw [hnone, List.append_nil] at hsplit
    rw [← hsplit]
    exact List.mem_filter.mpr ⟨hf, htag⟩

end ConsumePipeline
end RabbitMQ

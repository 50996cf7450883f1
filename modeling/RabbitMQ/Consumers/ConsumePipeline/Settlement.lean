import RabbitMQ.Consumers.ConsumePipeline.Account
import RabbitMQ.Consumers.SequentialProcessor.Conservation

/-! A delivery is settled at most once, on the channel that delivered it, and exactly once when its
handler finished.

The first half holds in every run. For the second the `catch` blocks have to get through with what
was thrown: the pipeline's and the processor's both render the value in a log line and ask the retry
policy before they settle. The sweep of a processor asks the policy too. -/

namespace RabbitMQ
namespace ConsumePipeline

open Transition

variable {α : Type} {s s' : State α} {env : Env α} {sub : Subscription} {d d' : Delivery α}
  {tag id : Nat} {message : Message α}

/-- Something was thrown that the `catch` block has not seen yet. -/
def Stage.throwing : Stage → Bool
  | .rejected _ _ => true
  | _ => false

/-- The `catch` blocks of the subscription get through with this value, thrown for this message. -/
def Catchable (sub : Subscription) (message : Message α) (error : Value) : Prop :=
  Describable error ∧ Evaluable sub.retryPolicy message error

/-- Whether a delivery whose handler throws this still needs the `catch` block, and can use it. -/
def State.Catches (s : State α) (message : Message α) (error : Value) : Prop :=
  ∀ d sub, s.lookup message.tag = some (d, sub) →
    d.ackSettled ∨ sub.noAck ∨ Catchable sub message error

/-- The retry policy can be asked about whatever has expired in the processor, unless it was settled
before. -/
def State.Expires [DecidableEq α] [ToString α] (s : State α) (id : Nat) : Prop :=
  ∀ p, s.processors.get? id = some p → ∀ messageId data, p.pending.get? messageId = some data →
    ∀ d sub, s.lookup data.message.tag = some (d, sub) →
      (∀ staleTimeout ∈ sub.sequential, staleTimeout < p.now - data.queuedAt) →
        d.ackSettled ∨ sub.noAck ∨ Evaluable sub.retryPolicy data.message data.expiry

/-- Every thrown value can be rendered and the retry policy asked about it, and about what expires,
unless the application settled the delivery before. -/
def Caught [DecidableEq α] [ToString α] (s : State α) (input : Env α × Event α) : Prop :=
  match input.2 with
  | .undecodable tag error | .callbackRejected tag error =>
    ∀ d, s.deliveries.get? tag = some d → s.Catches d.message error
  | .processor id (.callbackRejected root error) =>
    ∀ p message startTime rest, s.processors.get? id = some p →
      p.calls.get? root = some (⟨message, startTime, .callback⟩ :: rest) → s.Catches message error
  | .processor id .cleanup => s.Expires id
  | _ => True

/-- Nothing is owed to the broker: a settlement was sent, or the attempt threw. -/
def State.Resolved (s : State α) (tag : Nat) : Prop := s.settled tag ∨ tag ∈ s.refused

/-- The `catch` block is about to settle the delivery: the value was not thrown through a
processor, which would have called `onFailure` itself. -/
def Stage.Failing (stage : Stage) (sub : Subscription) (message : Message α) : Prop :=
  ∃ decoded error, stage = .rejected decoded error ∧ Catchable sub message error ∧
    (decoded → sub.sequential = none)

/-- A finished delivery is resolved or about to be. -/
def Closed (s : State α) : Prop :=
  ∀ tag ∈ s.finished, ∀ d sub, s.lookup tag = some (d, sub) → sub.noAck = false →
    s.Resolved tag ∨ d.stage.Failing sub d.message

theorem Evolves.settled (e : Evolves s s') (h : s.settled tag) : s'.settled tag := by
  obtain ⟨d, hd, hset⟩ := (Option.any_eq_true _ _).mp h
  obtain ⟨d', hd', ev⟩ := e.delivery tag d hd
  exact (Option.any_eq_true _ _).mpr ⟨d', hd', ev.settled hset⟩

theorem Evolves.resolved (e : Evolves s s') : s.Resolved tag → s'.Resolved tag :=
  Or.imp e.settled (e.refused tag)

theorem settle_resolved (hd : s.deliveries.get? tag = some d) (env : Env α) (channel : Nat)
    (action : Action) (origin : Origin) : (s.settle env channel tag action origin).Resolved tag := by
  unfold State.settle
  simp only [hd]
  split
  · next hset => exact .inl ((Option.any_eq_true _ _).mpr ⟨d, hd, hset⟩)
  · split
    · exact .inr List.mem_cons_self
    · exact .inl ((Option.any_eq_true _ _).mpr ⟨_, OrderedMap.get?_set_self _ _ _, rfl⟩)

theorem settleAck_resolved (hd : s.deliveries.get? tag = some d) (hnoAck : sub.noAck = false)
    (env : Env α) (action : Action) : (s.settleAck env sub tag action).Resolved tag := by
  unfold State.settleAck
  rw [hnoAck]
  exact settle_resolved hd ..

/-- A step that leaves the stages alone keeps what is finished closed. -/
theorem Closed.of_evolves (h : Closed s) (e : Evolves s s') (hfinished : s'.finished = s.finished)
    (hstage : ∀ tag d' sub, s'.lookup tag = some (d', sub) →
      ∃ d, s.lookup tag = some (d, sub) ∧ d'.stage = d.stage ∧ d'.message = d.message) :
    Closed s' := by
  intro tag ht d' sub hl hnoAck
  obtain ⟨d, hl', hst, hmessage⟩ := hstage tag d' sub hl
  rw [hst, hmessage]
  exact (h tag (hfinished ▸ ht) d sub hl' hnoAck).imp_left e.resolved

theorem Closed.settle (h : Closed s) (env : Env α) (channel tag : Nat) (action : Action)
    (origin : Origin) : Closed (s.settle env channel tag action origin) := by
  refine h.of_evolves (settle_evolves ..) (settle_finished ..) ?_
  unfold State.settle
  split
  · exact fun _ d _ hl => ⟨d, hl, rfl, rfl⟩
  · next d₀ hd₀ =>
    split
    · exact fun _ d _ hl => ⟨d, hl, rfl, rfl⟩
    · split
      · exact fun _ d _ hl => ⟨d, hl, rfl, rfl⟩
      · intro t d' sub hl
        obtain ⟨hd', hsub⟩ := lookup_eq_some.mp hl
        rw [OrderedMap.get?_set] at hd'
        split at hd'
        · next ht =>
          cases hd'
          exact ⟨d₀, lookup_eq_some.mpr ⟨ht ▸ hd₀, hsub⟩, rfl, rfl⟩
        · exact ⟨d', lookup_eq_some.mpr ⟨hd', hsub⟩, rfl, rfl⟩

theorem Closed.settleAck (h : Closed s) (env : Env α) (sub : Subscription) (tag : Nat)
    (action : Action) : Closed (s.settleAck env sub tag action) := by
  unfold State.settleAck
  split
  · exact h
  · exact Closed.settle h env sub.channel tag action .pipeline

theorem Closed.finish (h : Closed s) (ht : ∀ d sub, s.lookup tag = some (d, sub) →
    sub.noAck = false → s.Resolved tag) : Closed (s.finish tag) := by
  intro t hmem d sub hl hnoAck
  rcases List.mem_cons.mp hmem with rfl | hmem
  · exact .inl (ht d sub hl hnoAck)
  · exact h t hmem d sub hl hnoAck

/-- The stage of a finished delivery may change once it is resolved, or when it starts to fail. -/
theorem Closed.setStage {stage : Stage}
    (h : ∀ t ∈ s.finished, t ≠ tag → ∀ d sub, s.lookup t = some (d, sub) → sub.noAck = false →
      s.Resolved t ∨ d.stage.Failing sub d.message)
    (htag : tag ∈ s.finished → ∀ d sub, s.lookup tag = some (d, sub) → sub.noAck = false →
      s.Resolved tag ∨ stage.Failing sub d.message) : Closed (s.setStage tag stage) := by
  intro t ht d' sub hl hnoAck
  have hresolved : ∀ t, s.Resolved t → (s.setStage tag stage).Resolved t := fun t => by
    rintro (hset | href)
    · unfold State.setStage
      split
      · exact .inl hset
      · next d hd =>
        have hsame : ({ d with stage } : Delivery α).ackSettled = d.ackSettled := rfl
        exact .inl ((settled_put hd hsame t).trans hset)
    · unfold State.setStage
      split <;> exact .inr href
  rw [setStage_finished] at ht
  by_cases htt : t = tag
  · subst htt
    cases hd : s.deliveries.get? t with
    | none =>
      simp only [State.setStage, hd] at hl
      cases hd.symm.trans (lookup_eq_some.mp hl).1
    | some d =>
      simp only [State.setStage, hd] at hl
      obtain ⟨hd', hsub⟩ := lookup_eq_some.mp hl
      rw [OrderedMap.get?_set_self] at hd'
      cases hd'
      exact (htag ht d sub (lookup_eq_some.mpr ⟨hd, hsub⟩) hnoAck).imp_left (hresolved t)
  · refine (h t ht htt d' sub ?_ hnoAck).imp_left (hresolved t)
    revert hl
    unfold State.setStage
    split
    · exact fun hl => hl
    · intro hl
      obtain ⟨hd', hsub⟩ := lookup_eq_some.mp hl
      rw [OrderedMap.get?_set, if_neg htt] at hd'
      exact lookup_eq_some.mpr ⟨hd', hsub⟩

/-- A handler that just settled: the delivery is resolved or the `catch` block is next. -/
theorem Closed.finish_setStage (h : Closed s) {stage : Stage}
    (htag : ∀ d sub, s.lookup tag = some (d, sub) → sub.noAck = false →
      s.Resolved tag ∨ stage.Failing sub d.message) : Closed ((s.finish tag).setStage tag stage) := by
  refine Closed.setStage (fun t ht hne => h t ?_) fun _ => htag
  exact (List.mem_cons.mp ht).resolve_left hne

/-- What a sweep of the processor drops undecided was settled before, or needs no settlement. -/
def State.Drops (s : State α) (sub : Subscription) : SequentialProcessor.Output α → Prop
  | .undecided message => s.settled message.tag ∨ sub.noAck
  | _ => True

theorem Evolves.drops (e : Evolves s s') {o : SequentialProcessor.Output α} (h : s.Drops sub o) :
    s'.Drops sub o := by
  cases o with
  | undecided message => exact h.imp_left e.settled
  | _ => trivial

theorem Closed.report [DecidableEq α] (h : Closed s) (hsub : s.subscriptions.get? id = some sub)
    (hseq : sub.sequential.isSome) {o : SequentialProcessor.Output α}
    (ho : o.Within (s.Handed id)) (hdrops : s.Drops sub o) : Closed (State.report env sub s o) := by
  have hreported : ∀ tag action, s.Handed id tag →
      Closed ((s.settleAck env sub tag action).finish tag) := fun tag action htag => by
    refine (h.settleAck env sub tag action).finish fun d sub' hl hnoAck => ?_
    have e := settleAck_evolves s env sub tag action
    obtain rfl := (e.handed htag).sub_eq (e.subscription _ _ hsub) d sub' hl
    obtain ⟨d₀, hd₀, -⟩ := htag
    exact settleAck_resolved hd₀ hnoAck env action
  have hreturned : ∀ root stage, s.Handed id root → Closed (s.setStage root stage) :=
    fun root stage hroot => by
      refine Closed.setStage (fun t ht _ => h t ht) fun hroot' d sub' hl hnoAck => .inl ?_
      obtain ⟨d₀, hl₀, hdec⟩ := hroot.lookup hsub
      obtain rfl := hroot.sub_eq hsub d sub' hl
      cases hl.symm.trans hl₀
      refine (h root hroot' d sub' hl hnoAck).resolve_right ?_
      rintro ⟨decoded, error, hstage, -, hplain⟩
      rw [hstage] at hdec
      simp [hplain hdec] at hseq
  cases o with
  | onSuccess message _ => exact hreported _ _ ho
  | onFailure message _ requeue _ => exact hreported _ _ ho
  | undecided message =>
    refine h.finish fun d sub' hl hnoAck => .inl (hdrops.resolve_right fun hno => ?_)
    obtain rfl := State.Handed.sub_eq ho hsub d sub' hl
    cases hnoAck.symm.trans hno
  | handled root result => cases result <;> exact hreturned _ _ ho
  | _ => exact h

theorem Closed.reports [DecidableEq α] (h : Closed s) (hsub : s.subscriptions.get? id = some sub)
    (hseq : sub.sequential.isSome) {out : List (SequentialProcessor.Output α)}
    (hout : ∀ o ∈ out, o.Within (s.Handed id)) (hdrops : ∀ o ∈ out, s.Drops sub o) :
    Closed (out.foldl (State.report env sub) s) := by
  induction out generalizing s with
  | nil => exact h
  | cons o out ih =>
    have e := report_evolves s env sub o
    refine ih (h.report hsub hseq (hout o List.mem_cons_self) (hdrops o List.mem_cons_self))
      (e.subscription _ _ hsub) (fun o' ho' => ?_) fun o' ho' => ?_
    · exact e.within (hout o' (List.mem_cons_of_mem _ ho'))
    · exact e.drops (hdrops o' (List.mem_cons_of_mem _ ho'))

/-- What was reported is resolved. -/
theorem settles_resolved (hnoAck : sub.noAck = false) {out : List (SequentialProcessor.Output α)}
    {o : SequentialProcessor.Output α} (ho : o ∈ out) (hsettles : o.settles tag)
    (hd : s.deliveries.get? tag = some d) : (out.foldl (State.report env sub) s).Resolved tag := by
  obtain ⟨before, after, rfl⟩ := List.append_of_mem ho
  rw [List.foldl_append, List.foldl_cons]
  refine (reports_evolve env sub after _).resolved ?_
  obtain ⟨d', hd', -⟩ := (reports_evolve env sub before s).delivery _ d hd
  cases o with
  | onSuccess message info =>
    obtain rfl : message.tag = tag := of_decide_eq_true hsettles
    exact (finish_evolves _ _).resolved (settleAck_resolved hd' hnoAck env _)
  | onFailure message error requeue info =>
    obtain rfl : message.tag = tag := of_decide_eq_true hsettles
    exact (finish_evolves _ _).resolved (settleAck_resolved hd' hnoAck env _)
  | _ => cases hsettles

variable [DecidableEq α]

/-- When the thrown value can be rendered and asked, the `catch` block of the processor reports the
failure of the delivery whose callback threw. -/
theorem failure_reported {error : Value} {frame : SequentialProcessor.Frame α}
    (hc : Catchable sub frame.message error) (env : Env α)
    (event : SequentialProcessor.Event α) (c : SequentialProcessor.Config)
    (p : SequentialProcessor.State α) (root : Nat) (rest : List (SequentialProcessor.Frame α)) :
    ∃ requeue info, .onFailure frame.message error requeue info ∈
      (SequentialProcessor.settle c (hooks env sub event) root p (.error error)
        (frame :: rest)).2 := by
  obtain ⟨text, htext⟩ := hc.1.text
  obtain ⟨requeue, hrequeue⟩ := hc.2.shouldRequeue_ok
  have hlog : c.logError error = .ok () := by
    unfold SequentialProcessor.Config.logError
    split
    · rw [htext]; rfl
    · rfl
  refine ⟨requeue, .ran (p.now - frame.startTime), ?_⟩
  have hnow : (p.removeProcessing frame.message.messageId .failure).1.now = p.now :=
    (congrArg SequentialProcessor.State.now
      (SequentialProcessor.removeProcessing_frame p frame.message.messageId .failure) :)
  simp only [SequentialProcessor.settle, SequentialProcessor.processCatch, hooks, hrequeue, hlog]
  rw [hnow]
  exact List.mem_append_left _ (List.mem_append_right _ List.mem_cons_self)

theorem Closed.advance (h : Closed s) (hsub : s.subscriptions.get? id = some sub)
    (hseq : sub.sequential.isSome)
    {r : SequentialProcessor.State α × List (SequentialProcessor.Output α)}
    (hr : SequentialProcessor.Keeps (s.Handed id) r) (hdrops : ∀ o ∈ r.2, s.Drops sub o) :
    Closed (s.advance env id sub r) := by
  have hput : Closed { s with processors := s.processors.set id r.1 } := h
  exact hput.reports hsub hseq hr.2 hdrops

theorem Closed.processMessage (h : Closed s) (ha : Accounted s)
    (hd : s.lookup tag = some (d, sub)) (hstage : d.stage = .decoding) :
    Closed (s.processMessage env d sub) := by
  obtain ⟨hget, hsub⟩ := lookup_eq_some.mp hd
  obtain ⟨htag, -⟩ := ha.attributed.delivery tag d hget
  have hs : Closed (s.setStage d.message.tag .handling) := by
    refine Closed.setStage (fun t ht _ => h t ht) fun ht d' sub' hl hnoAck => .inl ?_
    refine (h _ ht d' sub' hl hnoAck).resolve_right ?_
    cases (htag ▸ hl).symm.trans hd
    rintro ⟨decoded, error, hrejected, -⟩
    rw [hstage] at hrejected
    cases hrejected
  simp only [State.processMessage]
  split
  · next staleTimeout p hseq hp =>
    obtain ⟨hsub, hkeeps⟩ := ha.delivers _ hd hp
    refine hs.advance hsub (by simp [hseq]) hkeeps fun o ho => ?_
    cases o with
    | undecided message => exact absurd ho SequentialProcessor.deliver_undecided
    | _ => trivial
  · exact hs

/-- The delivery is acknowledged before anything else can throw. -/
theorem Closed.complete (h : Closed s) (ha : Accounted s) (hd : s.lookup tag = some (d, sub)) :
    Closed (s.complete env d sub) := by
  obtain ⟨hget, hsub⟩ := lookup_eq_some.mp hd
  obtain ⟨htag, -⟩ := ha.attributed.delivery tag d hget
  have hacked : ∀ d' sub', (s.settleAck env sub d.message.tag .ack).lookup d.message.tag =
      some (d', sub') → sub'.noAck = false →
        (s.settleAck env sub d.message.tag .ack).Resolved d.message.tag := fun d' sub' hl hnoAck => by
    obtain ⟨d₁, hd₁, ev⟩ := (settleAck_evolves s env sub d.message.tag .ack).delivery _ d
      (htag.symm ▸ hget)
    obtain ⟨hd', hsub'⟩ := lookup_eq_some.mp hl
    cases hd'.symm.trans hd₁
    rw [ev.subscription] at hsub'
    cases hsub'.symm.trans ((settleAck_evolves s env sub d.message.tag .ack).subscription _ _ hsub)
    exact settleAck_resolved (htag.symm ▸ hget) hnoAck env .ack
  have hs := h.settleAck env sub d.message.tag .ack
  simp only [State.complete]
  split
  · exact hs.finish_setStage fun d' sub' hl hnoAck => .inl (hacked d' sub' hl hnoAck)
  · exact hs.finish_setStage fun d' sub' hl hnoAck => .inl (hacked d' sub' hl hnoAck)

/-- The `catch` block settles what is failing. -/
theorem Closed.caught (h : Closed s) (ha : Accounted s) (hd : s.lookup tag = some (d, sub))
    {decoded : Bool} {error : Value} (hstage : d.stage = .rejected decoded error) :
    Closed ((s.catchError env sub d.message error).setStage tag .returned) := by
  obtain ⟨hget, hsub⟩ := lookup_eq_some.mp hd
  obtain ⟨htag, -⟩ := ha.attributed.delivery tag d hget
  have e := catchError_evolves s env sub d.message error
  have hs : Closed (s.catchError env sub d.message error) := by
    unfold State.catchError
    split
    · exact h
    · split
      · exact h
      · exact h.settleAck env sub d.message.tag (.nack _)
  refine Closed.setStage (fun t ht _ => hs t ht) fun ht d' sub' hl hnoAck => .inl ?_
  have hfinished : (s.catchError env sub d.message error).finished = s.finished := by
    unfold State.catchError State.settleAck State.settle
    repeat' split
    all_goals rfl
  obtain ⟨d₁, hd₁, ev⟩ := e.delivery tag d hget
  obtain ⟨hd', hsub'⟩ := lookup_eq_some.mp hl
  cases hd'.symm.trans hd₁
  rw [ev.subscription] at hsub'
  cases hsub'.symm.trans (e.subscription _ _ hsub)
  rcases h tag (hfinished ▸ ht) d sub hd hnoAck with hres | ⟨_, error', hrejected, hc, -⟩
  · exact e.resolved hres
  · cases hstage.symm.trans hrejected
    obtain ⟨text, htext⟩ := hc.1.text
    obtain ⟨requeue, hrequeue⟩ := hc.2.shouldRequeue_ok
    simp only [State.catchError, htext, hrequeue]
    exact htag ▸ settleAck_resolved (htag.symm ▸ hget) hnoAck env _

variable [ToString α]

/-- A handler that throws inside a processor: its `catch` block calls `onFailure`. -/
theorem processor_resolved {p : SequentialProcessor.State α} {staleTimeout : Nat}
    {event : SequentialProcessor.Event α}
    {r : SequentialProcessor.State α × List (SequentialProcessor.Output α)}
    (hsub : s.subscriptions.get? id = some sub) (hp : s.processors.get? id = some p)
    (hs : SequentialProcessor.step (config staleTimeout) p (hooks env sub event, event) = some r)
    (hok : Caught s (env, .processor id event)) (hthrow : throwing p event = some tag)
    (hhanded : s.Handed id tag) (hnoAck : sub.noAck = false) :
    (s.advance env id sub r).Resolved tag := by
  cases event with
  | callbackRejected root error =>
    obtain ⟨d, hl, -⟩ := hhanded.lookup hsub
    have hd := (lookup_eq_some.mp hl).1
    cases SequentialProcessor.step_cases hs with
    | @callbackRejected _ message startTime rest _ hcall =>
      simp only [throwing, hcall, Option.some.injEq] at hthrow
      subst hthrow
      rcases hok p message startTime rest hp hcall d sub hl with hset | hno | hc
      · exact (advance_evolves ..).resolved (.inl ((Option.any_eq_true _ _).mpr ⟨d, hd, hset⟩))
      · cases hnoAck.symm.trans hno
      · let frame : SequentialProcessor.Frame α := ⟨message, startTime, .callback⟩
        have hcatchable : Catchable sub frame.message error := hc
        obtain ⟨requeue, info, ho⟩ := failure_reported hcatchable env (.callbackRejected root error)
          (config staleTimeout) p root rest
        exact settles_resolved (s := { s with processors := s.processors.set id _ }) hnoAck ho
          (decide_eq_true rfl) hd
  | _ => cases hthrow

/-- What expires undecided owes the broker nothing. -/
theorem expires_drops (ha : Attributed s) {p : SequentialProcessor.State α} {staleTimeout : Nat}
    {event : SequentialProcessor.Event α}
    {r : SequentialProcessor.State α × List (SequentialProcessor.Output α)}
    (hsub : s.subscriptions.get? id = some sub) (hp : s.processors.get? id = some p)
    (hsequential : sub.sequential = some staleTimeout)
    (hs : SequentialProcessor.step (config staleTimeout) p (hooks env sub event, event) = some r)
    (hlater : ∀ message, event ≠ .handle message) (hok : event = .cleanup → s.Expires id) :
    ∀ o ∈ r.2, s.Drops sub o := by
  intro o ho
  cases o with
  | undecided message =>
    obtain ⟨hcleanup, messageId, data, hget, rfl, hstale, error, herror⟩ :=
      (SequentialProcessor.step_cases hs).undecided hlater ho
    have hhanded : s.Handed id data.message.tag := (ha.processor id p hp).parked _ _ hget
    obtain ⟨d, hl, -⟩ := hhanded.lookup hsub
    have hd := (lookup_eq_some.mp hl).1
    have hexpired : ∀ timeout ∈ sub.sequential, timeout < p.now - data.queuedAt := by
      intro timeout htimeout
      cases hsequential.symm.trans htimeout
      exact hstale
    rcases hok hcleanup p hp messageId data hget d sub hl hexpired with hset | hno | hevaluable
    · exact .inl ((Option.any_eq_true _ _).mpr ⟨d, hd, hset⟩)
    · exact .inr hno
    · obtain ⟨requeue, hrequeue⟩ := hevaluable.shouldRequeue_ok
      have hdecided : shouldRequeue data.message data.expiry sub.retryPolicy = .error error := herror
      cases hdecided.symm.trans hrequeue
  | _ => trivial

theorem Steps.closed {event : Event α} (H : Steps env s event s') (ha : Accounted s)
    (hok : Caught s (env, event)) (h : Closed s) : Closed s' := by
  have hfails : ∀ {tag : Nat} {stage : Stage} {error : Value} {d : Delivery α},
      s.deliveries.get? tag = some d → (∀ d, s.deliveries.get? tag = some d →
        s.Catches d.message error) →
      (∀ sub, s.lookup tag = some (d, sub) → Catchable sub d.message error →
        stage.Failing sub d.message) →
      Closed ((s.finish tag).setStage tag stage) := fun {tag _ _ d₀} hd₀ hc hstage => by
    refine h.finish_setStage fun d sub hl hnoAck => ?_
    have hd := (lookup_eq_some.mp hl).1
    cases hd₀.symm.trans hd
    obtain ⟨htag, -⟩ := ha.attributed.delivery tag d₀ hd
    rcases hc d₀ hd d₀ sub (htag.symm ▸ hl) with hset | hno | hc
    · exact .inl (.inl ((Option.any_eq_true _ _).mpr ⟨d₀, hd, hset⟩))
    · cases hnoAck.symm.trans hno
    · exact .inr (hstage sub hl hc)
  cases H with
  | @subscribe id sub hfresh =>
    intro tag ht d sub' hl hnoAck
    obtain ⟨hd, hsub'⟩ := lookup_eq_some.mp hl
    obtain ⟨-, sub'', hl'', -⟩ := ha.attributed.delivery tag d hd
    have hne : d.subscription ≠ id := fun heq =>
      hfresh (heq ▸ OrderedMap.mem_of_get? (lookup_eq_some.mp hl'').2)
    rw [OrderedMap.get?_set, if_neg hne] at hsub'
    exact h tag ht d sub' (lookup_eq_some.mpr ⟨hd, hsub'⟩) hnoAck
  | @deliver id sub message hsub hfresh =>
    intro tag ht d' sub' hl hnoAck
    have hne : tag ≠ message.tag := fun heq => hfresh (heq ▸ ha.known tag ht)
    have hresolved : s.Resolved tag → State.Resolved { s with
        deliveries := s.deliveries.set message.tag
          ⟨id, sub.channel, message, false, .decoding⟩ } tag :=
      Or.imp_left fun hset => by
        simp only [State.settled, OrderedMap.get?_set, if_neg hne]
        exact hset
    obtain ⟨hd', hsub'⟩ := lookup_eq_some.mp hl
    rw [OrderedMap.get?_set, if_neg hne] at hd'
    exact (h tag ht d' sub' (lookup_eq_some.mpr ⟨hd', hsub'⟩) hnoAck).imp_left hresolved
  | decoded hd hstage => exact h.processMessage ha hd hstage
  | undecodable hd hstage =>
    exact hfails (lookup_eq_some.mp hd).1 hok fun sub _ hc => ⟨false, _, rfl, hc, by simp⟩
  | callbackResolved hd hstage hplain => exact h.complete ha hd
  | callbackRejected hd hstage hplain =>
    refine hfails (lookup_eq_some.mp hd).1 hok fun sub' hl hc => ⟨true, _, rfl, hc, fun _ => ?_⟩
    cases hl.symm.trans hd
    exact hplain
  | caught hd hstage => exact h.caught ha hd hstage
  | @processor id sub p staleTimeout event r hsub hp hseq hlater hs =>
    have hr : SequentialProcessor.Keeps (s.Handed id) r :=
      (SequentialProcessor.step_cases hs).within (ha.attributed.processor id p hp)
        fun message hm => absurd hm (hlater message)
    have hdrops : ∀ o ∈ r.2, s.Drops sub o :=
      expires_drops ha.attributed hsub hp hseq hs hlater fun hcleanup => by
        subst hcleanup
        exact hok
    have hs' : Closed (s.advance env id sub r) := h.advance hsub (by simp [hseq]) hr hdrops
    cases hthrow : throwing p event with
    | none => exact hs'
    | some tag =>
      refine hs'.finish fun d' sub' hl hnoAck => ?_
      have e := advance_evolves s env id sub r
      have hhanded := throwing_handed ha.attributed hp hthrow
      obtain rfl := (e.handed hhanded).sub_eq (e.subscription _ _ hsub) d' sub' hl
      exact processor_resolved hsub hp hs hok hthrow hhanded hnoAck
  | ackMessage hmem =>
    unfold State.ackMessage
    split
    · exact h
    · exact h.settle env _ _ .ack .application
  | nackMessage hmem =>
    unfold State.nackMessage
    split
    · exact h
    · exact h.settle env _ _ (.nack _) .application

theorem closed (hr : Reach step Caught start s) : Closed s :=
  hr.invariant_of (fun hr => accounted hr) (nofun : Closed (start : State α))
    fun ha _ h hok hs => (step_cases hs).closed ha hok h

/-! ## The settlements of a delivery -/

/-- What holds of the settlements of a delivery at any moment. -/
structure SettledOnce (s : State α) (tag : Nat) (sub : Subscription) : Prop where
  atMostOnce : (s.settlementsOf tag).length ≤ 1
  ownChannel : ∀ f ∈ s.settlementsOf tag, f.channel = sub.channel
  noAck : sub.noAck → ∀ f ∈ s.settlementsOf tag, f.origin = .application

omit [ToString α] in
theorem Accounted.settledOnce (h : Accounted s) (hl : s.lookup tag = some (d, sub)) :
    SettledOnce s tag sub := by
  have hsource : ∀ f ∈ s.settlementsOf tag, f.channel = sub.channel ∧
      (f.origin = .pipeline → sub.noAck = false) := fun f hf => by
    obtain ⟨hf, htag⟩ := List.mem_filter.mp hf
    obtain ⟨d', sub', hl', hrest⟩ := h.counted.source f hf
    rw [of_decide_eq_true htag] at hl'
    cases hl'.symm.trans hl
    exact hrest
  refine ⟨?_, fun f hf => (hsource f hf).1, fun hno f hf => ?_⟩
  · rw [h.counted.count]
    exact Bool.toNat_le _
  · cases horigin : f.origin with
    | application => rfl
    | pipeline => cases ((hsource f hf).2 horigin).symm.trans hno

/-- In every run a delivery is settled at most once, on the channel that delivered it, and never by
the pipeline under `noAck`. In a run whose `catch` blocks get through with everything thrown, a
delivery that is finished was settled, unless its `ack` or `nack` threw or the `catch` block is
still to come. -/
theorem delivery_settled_once (hr : Reach step anyStep start s)
    (hl : s.lookup tag = some (d, sub)) :
    SettledOnce s tag sub ∧
      (Reach step Caught start s → sub.noAck = false → tag ∈ s.finished → d.stage.throwing = false →
        tag ∉ s.refused → (s.settlementsOf tag).length = 1) := by
  have ha := accounted hr
  refine ⟨ha.settledOnce hl, fun hcaught hnoAck hfinished hquiet hrefused => ?_⟩
  rw [ha.counted.count]
  rcases closed hcaught tag hfinished d sub hl hnoAck with (hset | href) | ⟨_, _, hstage, -⟩
  · rw [hset]; rfl
  · exact absurd href hrefused
  · rw [hstage] at hquiet
    cases hquiet

/-- Nothing refuses a settlement or throws from a listener. -/
def Env.calm : Env α := ⟨fun _ _ => false, fun _ => .ok (), fun _ _ => .ok ()⟩

/-- A handler that throws this, up to the end of the `catch` block. -/
private def failingRun (error : Value) : List (Env String × Event String) :=
  [.subscribe 0 ⟨7, false, .once, none⟩, .deliver 0 { tag := 1 }, .decoded 1,
    .callbackRejected 1 error, .caught 1].map (Env.calm, ·)

/-- No header is a table. -/
def State.Convertible (s : State α) : Prop :=
  (∀ e ∈ s.deliveries.entries, e.2.message.deliveryCount ≠ .unconvertible) ∧
    ∀ e ∈ s.processors.entries, ∀ call ∈ e.2.calls.entries, ∀ frame ∈ call.2,
      frame.message.deliveryCount ≠ .unconvertible

instance (s : State α) : Decidable s.Convertible := inferInstanceAs (Decidable (_ ∧ _))

omit [DecidableEq α] [ToString α] in
theorem State.Convertible.delivery (h : s.Convertible) (hd : s.deliveries.get? tag = some d) :
    d.message.deliveryCount ≠ .unconvertible :=
  h.1 _ (OrderedMap.get?_eq_some_iff.mp hd)

omit [DecidableEq α] [ToString α] in
theorem State.Convertible.frame (h : s.Convertible) {p : SequentialProcessor.State α} {root : Nat}
    {stack : List (SequentialProcessor.Frame α)} {frame : SequentialProcessor.Frame α}
    (hp : s.processors.get? id = some p) (hcall : p.calls.get? root = some stack)
    (hframe : frame ∈ stack) : frame.message.deliveryCount ≠ .unconvertible :=
  h.2 _ (OrderedMap.get?_eq_some_iff.mp hp) _ (OrderedMap.get?_eq_some_iff.mp hcall) _ hframe

/-- An ordinary error: the delivery is requeued once, on its channel. -/
theorem delivery_settled_once_run : ∃ (s : State String) (sub : Subscription),
    SettledOnce s 1 sub ∧ (s.settlementsOf 1).length = 1 := by
  have hok : ∀ i ∈ failingRun (.error "no stock"), ∀ s : State String, s.Convertible →
      Caught s i := by
    intro i hi s hconvertible
    simp only [failingRun, List.map_cons, List.map_nil, List.mem_cons, List.not_mem_nil,
      or_false] at hi
    rcases hi with rfl | rfl | rfl | rfl | rfl
    · trivial
    · trivial
    · trivial
    · intro d hd d' sub hl
      have hretriable : Retriable sub.retryPolicy (.error "no stock") := .inr rfl
      exact .inr (.inr ⟨rfl, hretriable.evaluable (hconvertible.delivery hd)⟩)
    · trivial
  have hrun : (run step (fun s _ => s.Convertible) start (failingRun (.error "no stock"))).any
      fun s => (s.lookup 1).any fun (d, sub) => decide (sub.noAck = false ∧ 1 ∈ s.finished ∧
        d.stage.throwing = false ∧ 1 ∉ s.refused) := by decide +kernel
  obtain ⟨s, hs, h⟩ := (Option.any_eq_true _ _).mp hrun
  obtain ⟨⟨d, sub⟩, hl, h⟩ := (Option.any_eq_true _ _).mp h
  obtain ⟨hnoAck, hfinished, hquiet, hrefused⟩ := of_decide_eq_true h
  have hreach := reach_of_run_of_imp hok hs
  obtain ⟨honce, hexactly⟩ := delivery_settled_once hreach.toAny hl
  exact ⟨s, sub, honce, hexactly hreach hnoAck hfinished hquiet hrefused⟩

/-- A thrown value with no string conversion: the `catch` block throws in turn, and the delivery is
left without a settlement. -/
theorem delivery_unsettled_of_bare_error : ∃ (s : State String) (d : Delivery String)
    (sub : Subscription), Reach step anyStep start s ∧ s.lookup 1 = some (d, sub) ∧
      sub.noAck = false ∧ 1 ∈ s.finished ∧ d.stage.throwing = false ∧ 1 ∉ s.refused ∧
      (s.settlementsOf 1).length = 0 := by
  have hrun : (run step anyStep start (failingRun .bare)).any fun s =>
      (s.lookup 1).any fun (d, sub) => decide (sub.noAck = false ∧ 1 ∈ s.finished ∧
        d.stage.throwing = false ∧ 1 ∉ s.refused ∧ (s.settlementsOf 1).length = 0) := by
    decide +kernel
  obtain ⟨s, hs, h⟩ := (Option.any_eq_true _ _).mp hrun
  obtain ⟨⟨d, sub⟩, hl, h⟩ := (Option.any_eq_true _ _).mp h
  exact ⟨s, d, sub, reach_of_run hs, hl, of_decide_eq_true h⟩

end ConsumePipeline
end RabbitMQ
